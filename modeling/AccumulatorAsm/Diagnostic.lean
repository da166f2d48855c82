/-
  AccumulatorAsm.Diagnostic

  Messages to the author of a source text, with the place they speak of, a severity and a hint.
-/

import AccumulatorAsm.Text.Uppercase

namespace AccumulatorAsm

inductive Severity where
  | error
  | warning
  | note
  /-- A severity of the caller's own. -/
  | other (name : String)
  deriving DecidableEq, Repr

namespace Severity

def name : Severity → String
  | .error => "error"
  | .warning => "advertencia"
  | .note => "nota"
  | .other name => name

def ofName (name : String) : Severity :=
  if name = "error" then .error
  else if name = "advertencia" then .warning
  else if name = "nota" then .note
  else .other name

def label : Severity → String
  | .error => "ERROR"
  | .warning => "ADVERTENCIA"
  | .note => "NOTA"
  | .other name => Text.uppercase name

theorem name_ofName (name : String) : (ofName name).name = name := by
  unfold ofName
  split
  · simp_all [Severity.name]
  split
  · simp_all [Severity.name]
  split
  · simp_all [Severity.name]
  · rfl

end Severity

/-- A column is shown only behind a line. -/
structure Diagnostic where
  severity : Severity
  message : String
  line : Option Int := none
  col : Option Int := none
  hint : Option String := none
  file : Option String := none
  deriving DecidableEq, Repr

namespace Diagnostic

/-- The place of a diagnostic; a file name keeps its colon when no line follows. -/
def place (d : Diagnostic) : String :=
  let file := match d.file with
    | some file => s!"{file}:"
    | none => ""
  let position := match d.line, d.col with
    | some line, some col => s!"{line}:{col}"
    | some line, none => s!"{line}"
    | none, _ => ""
  file ++ position

def render (d : Diagnostic) : String :=
  let place := if d.place = "" then "" else s!"{d.place}: "
  let hint := match d.hint with
    | some hint => if hint = "" then "" else s!"  (pista: {hint})"
    | none => ""
  place ++ s!"{d.severity.label}: {d.message}" ++ hint

end Diagnostic

end AccumulatorAsm
