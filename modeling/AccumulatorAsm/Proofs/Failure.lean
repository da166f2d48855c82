/-
  AccumulatorAsm.Proofs.Failure

  File names offered to a failure one after the other, as by stages of which some know the name of
  the source and some do not. The failure takes a name only while it has none, so it keeps the name
  it was made with, or else the first one it is offered. At any time it is the failure that would
  have been made with that name (`withFiles_ofDiagnostic`); its report therefore never falls behind
  its diagnostic (`consistent_withFiles`).
-/

import Mathlib.Data.List.ReduceOption
import AccumulatorAsm.Failure

namespace AccumulatorAsm.Failure

/-- Offers file names in their order; `none` offers no name. -/
def withFiles (f : Failure) (files : List (Option String)) : Failure :=
  files.foldl withFile f

theorem withFile_ofDiagnostic (kind : FailureKind) (d : Diagnostic) (file : Option String) :
    (ofDiagnostic kind d).withFile file = ofDiagnostic kind { d with file := d.file.or file } := by
  obtain ⟨severity, message, line, col, hint, known⟩ := d
  cases known with
  | some name => exact withFile_of_file rfl file
  | none => cases file <;> rfl

theorem head?_reduceOption_cons {α : Type} (x : Option α) (xs : List (Option α)) :
    (x :: xs).reduceOption.head? = x.or xs.reduceOption.head? := by
  cases x with
  | none => rw [List.reduceOption_cons_of_none, Option.none_or]
  | some a => rw [List.reduceOption_cons_of_some, List.head?_cons, Option.some_or]

/-- Many offers come to one, of the first name among them. -/
theorem withFiles_ofDiagnostic (kind : FailureKind) (d : Diagnostic)
    (files : List (Option String)) :
    (ofDiagnostic kind d).withFiles files =
      ofDiagnostic kind { d with file := d.file.or files.reduceOption.head? } := by
  induction files generalizing d with
  | nil => simp [withFiles]
  | cons file files ih =>
    calc (ofDiagnostic kind d).withFiles (file :: files)
        = ((ofDiagnostic kind d).withFile file).withFiles files := rfl
      _ = (ofDiagnostic kind { d with file := d.file.or file }).withFiles files := by
        rw [withFile_ofDiagnostic]
      _ = ofDiagnostic kind { d with file := (d.file.or file).or files.reduceOption.head? } :=
        ih _
      _ = ofDiagnostic kind { d with file := d.file.or (file :: files).reduceOption.head? } := by
        rw [head?_reduceOption_cons, Option.or_assoc]

/-- A failure of any kind that was offered any names has the file it was made with, else the first
    name of them, an empty one included, else none. All else is as it was made. The report that it
    carries and the message that is shown are the rendering of the diagnostic as it is now. -/
theorem consistent_withFiles (kind : FailureKind) (message : String) (line col : Option Int)
    (hint file : Option String) (files : List (Option String)) :
    let f := (new kind message line col hint file).withFiles files
    f.diagnostic.file = file.or files.reduceOption.head? ∧
      f.diagnostic =
        { severity := .error, message, line, col, hint, file := f.diagnostic.file } ∧
      f.kind = kind ∧
      f.report = f.diagnostic.render ∧ (Fault.failure f).message = f.diagnostic.render := by
  intro f
  have hf : f = new kind message line col hint (file.or files.reduceOption.head?) :=
    withFiles_ofDiagnostic kind _ files
  rw [hf]
  exact ⟨rfl, rfl, rfl, rfl, rfl⟩

/-- An empty name is a name, and a kind keeps its numbers. -/
example :
    (overCapacity 300 256).withFiles [none, some "", some "b.asm"] =
      overCapacity 300 256 none none (some "") := rfl

end AccumulatorAsm.Failure
