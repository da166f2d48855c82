/-
  AccumulatorAsm.Source.Line

  One line of source text. Its core is what is left of it without comment and outer blanks. A
  core that starts with `$` names a label up to the first colon; any other is a mnemonic and,
  behind the first blank, its operands. What a line is does not depend on the lines around it.
-/

import AccumulatorAsm.Machine.Mnemonic
import AccumulatorAsm.Operand.Reading

namespace AccumulatorAsm.Source

/-! ## Parts of a line -/

/-- Drops a comment, which starts at the first `//` even inside quotes. -/
def uncomment : List Char → List Char
  | [] => []
  | '/' :: '/' :: _ => []
  | c :: cs => c :: uncomment cs

def coreChars (cs : List Char) : List Char :=
  Text.trim (uncomment cs)

def core (line : String) : String :=
  String.ofList (coreChars line.toList)

def isLabelLine (line : String) : Bool :=
  (Text.trim line.toList).head? == some '$'

/-- Name and rest of a trimmed label line; none without a colon behind the `$`. -/
def labelParts? : List Char → Option (List Char × List Char)
  | '$' :: cs =>
    if ':' ∈ cs then
      some (Text.trim (cs.takeWhile (· ≠ ':')), Text.trim ((cs.dropWhile (· ≠ ':')).drop 1))
    else none
  | _ => none

/-- Label and rest of a line; a line without a label is all rest. -/
def splitLabel (line : String) : Option String × String :=
  let cs := Text.trim line.toList
  match labelParts? cs with
  | some (name, rest) => (some (String.ofList name), String.ofList rest)
  | none => (none, String.ofList cs)

/-- First word and rest of a trimmed text. -/
def statementParts (cs : List Char) : List Char × List Char :=
  (cs.takeWhile (!Text.isBlank ·), Text.trim (cs.dropWhile (!Text.isBlank ·)))

/-- Mnemonic and operand text of a line. -/
def splitStatement (line : String) : String × String :=
  let (word, rest) := statementParts (Text.trim line.toList)
  (String.ofList word, String.ofList rest)

/-! ## What a line says -/

inductive Line where
  | blank
  /-- A label for the next statement; `rest` is text behind it that says nothing. -/
  | label (name rest : String)
  | statement (mnemonic : Mnemonic) (operands : List Operand)
  deriving DecidableEq, Repr

namespace Line

/-- The reading of a core that starts with `$`. A label has a name. -/
def readLabel (core : String) : Except Cause Line :=
  match splitLabel core with
  | (none, _) => .error (.malformedLabelLine core)
  | (some name, rest) =>
    if name = "" then .error (.malformedLabelLine core) else .ok (.label name rest)

/-- The reading of any other core. An unknown mnemonic is found before its operands are read. -/
def readStatement (core : String) : Except Cause Line :=
  let (word, rest) := splitStatement core
  match Mnemonic.ofName? word with
  | none => .error (.unknownInstruction word)
  | some mnemonic => (Operand.readAll (Operand.tokens rest)).map (.statement mnemonic)

def read (raw : String) : Except Cause Line :=
  let text := core raw
  if text = "" then .ok .blank
  else if isLabelLine text then readLabel text
  else readStatement text

end Line

end AccumulatorAsm.Source
