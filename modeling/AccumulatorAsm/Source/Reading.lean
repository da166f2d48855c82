/-
  AccumulatorAsm.Source.Reading

  A source text read line by line. A label waits for the next statement; a second label in
  between takes its place, and one at the end of the text is dropped, both with a warning. The
  first line that cannot be read ends the reading.
-/

import AccumulatorAsm.Instruction
import AccumulatorAsm.Logged
import AccumulatorAsm.Source.Line
import AccumulatorAsm.Text.Line

namespace AccumulatorAsm.Source

structure PendingLabel where
  name : String
  line : Int
  deriving DecidableEq, Repr

/-- The instructions of the lines so far and the label that waits for the next one. -/
structure Reading where
  instructions : List Instruction := []
  pending : Option PendingLabel := none
  deriving DecidableEq, Repr

namespace Reading

/-- The warnings of a label line: first for text behind the label, then for a label it replaces. -/
def labelNotices (pending : Option PendingLabel) (lineno : Int) (name rest : String) :
    List Notice :=
  (if rest = "" then [] else [.textAfterLabel lineno name rest]) ++
    match pending with
    | some old => [.labelReplaced lineno old.name old.line name]
    | none => []

/-- Takes in what a line says. -/
def add (r : Reading) (lineno : Int) : Line → List Notice × Reading
  | .blank => ([], r)
  | .label name rest =>
    (labelNotices r.pending lineno name rest, { r with pending := some ⟨name, lineno⟩ })
  | .statement mnemonic operands =>
    ([], { instructions := r.instructions ++
             [{ kind := mnemonic.kind, operands, indirect := mnemonic.indirect,
                label := r.pending.map (·.name), line := lineno }] })

def addLine (r : Reading) (lineno : Int) (raw : String) : Logged Reading :=
  match Line.read raw with
  | .ok line => ⟨(r.add lineno line).1, .ok (r.add lineno line).2⟩
  | .error cause => .fail (.failure (cause.atLine (some lineno)))

def addLines (r : Reading) (lines : List (Int × String)) : Logged Reading :=
  lines.foldlM (fun r (lineno, raw) => r.addLine lineno raw) r

/-- What is noted at the end of the text. -/
def endNotices (r : Reading) : List Notice :=
  (match r.pending with
    | some label => [.labelUnused label.name label.line]
    | none => []) ++ [.instructionsRead r.instructions.length]

def finish (r : Reading) : Logged (List Instruction) :=
  ⟨r.endNotices, .ok r.instructions⟩

end Reading

/-- The instructions of a source text in order. -/
def read (text : String) (file : Option String := none) : Logged (List Instruction) := do
  let r ← (Reading.addLines {} (Text.numberedLines text)).withFile file
  r.finish

end AccumulatorAsm.Source
