/-
  AccumulatorAsm.Assembly

  The whole way from a source text to its memory image: reading, emission, linking and fixing the
  length, on a machine with room for some number of words. The first failure ends it and leaves no
  image.
-/

import AccumulatorAsm.Emission
import AccumulatorAsm.Image
import AccumulatorAsm.Linking
import AccumulatorAsm.Source.Reading

namespace AccumulatorAsm.Assembly

def stages (room : Room) (text : String) (length : Int) (file : Option String) : Logged Image := do
  let instructions ← Source.read text file
  let cells ← Emission.run instructions
  let linked ← Linking.run cells file
  Image.ofCells room linked length file

/-- The image of a source text. The length is looked at before the text, and every failure
    names the file. -/
def assemble (room : Room) (text : String) (length : Int := Image.defaultLength)
    (file : Option String := none) : Logged Image :=
  if length ≤ 0 then .fail (.invalid .nonPositiveLength)
  else (stages room text length file).withFile file

def assembleHex (room : Room) (text : String) (length : Int := Image.defaultLength)
    (file : Option String := none) : Logged String :=
  (ImageFormat.hex.render ·.words) <$> assemble room text length file

end AccumulatorAsm.Assembly
