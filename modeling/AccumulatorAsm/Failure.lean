/-
  AccumulatorAsm.Failure

  Failures of the assembler. A failure carries a diagnostic of severity `error` and beside it the
  report, which is the rendered diagnostic as it is shown to the user. Stages that do not know
  the source file leave it open; `withFile` fills it in later and renders the report anew.
-/

import AccumulatorAsm.Diagnostic
import AccumulatorAsm.InvalidValue

namespace AccumulatorAsm

inductive FailureKind where
  | general
  /-- An unknown mnemonic, a malformed label line, or an operand out of place. -/
  | badSyntax
  /-- Registers, expressions and literal formats that are reserved or unknown. -/
  | unsupported
  /-- A reference that no definition answers. -/
  | unlinked
  /-- A program of `generated` words for a memory of `length` words. -/
  | capacity (generated length : Int)
  deriving DecidableEq, Repr

structure Failure where
  kind : FailureKind
  diagnostic : Diagnostic
  report : String
  deriving DecidableEq, Repr

namespace Failure

def ofDiagnostic (kind : FailureKind) (diagnostic : Diagnostic) : Failure :=
  ⟨kind, diagnostic, diagnostic.render⟩

def new (kind : FailureKind) (message : String) (line : Option Int := none)
    (col : Option Int := none) (hint : Option String := none) (file : Option String := none) :
    Failure :=
  ofDiagnostic kind { severity := .error, message, line, col, hint, file }

/-- The failure of a program that does not fit, with the wording all such failures share. -/
def overCapacity (generated length : Int) (line : Option Int := none) (col : Option Int := none)
    (file : Option String := none) : Failure :=
  new (.capacity generated length)
    s!"el binario generado ocupa {generated} palabras y la memoria tiene {length}"
    line col (some "aumente --len o reduzca el programa") file

/-- Fills in the file of a failure that has none. -/
def withFile (f : Failure) (file : Option String) : Failure :=
  match f.diagnostic.file, file with
  | none, some name => ofDiagnostic f.kind { f.diagnostic with file := some name }
  | _, _ => f

@[simp] theorem withFile_none (f : Failure) : f.withFile none = f := by
  unfold withFile
  split <;> simp_all

/-- A file once known stays. -/
theorem withFile_of_file {f : Failure} {name : String} (h : f.diagnostic.file = some name)
    (file : Option String) : f.withFile file = f := by
  simp [withFile, h]

@[simp] theorem withFile_kind (f : Failure) (file : Option String) :
    (f.withFile file).kind = f.kind := by
  unfold withFile
  split <;> rfl

/-- A failure without a file is as if it had been made with the file that is filled in. -/
@[simp] theorem withFile_new (kind : FailureKind) (message : String) (line col : Option Int)
    (hint file : Option String) :
    (new kind message line col hint).withFile file = new kind message line col hint file := by
  cases file <;> rfl

/-- Filling in the file a failure was made with changes nothing. -/
@[simp] theorem withFile_new_self (kind : FailureKind) (message : String) (line col : Option Int)
    (hint file : Option String) :
    (new kind message line col hint file).withFile file = new kind message line col hint file := by
  cases file <;> rfl

@[simp] theorem withFile_overCapacity (generated length : Int) (file : Option String) :
    (overCapacity generated length none none).withFile file =
      overCapacity generated length none none file :=
  withFile_new ..

@[simp] theorem withFile_withFile_self (f : Failure) (file : Option String) :
    (f.withFile file).withFile file = f.withFile file := by
  cases file with
  | none => simp
  | some name =>
    cases hf : f.diagnostic.file with
    | none => simp [withFile, hf, ofDiagnostic]
    | some old => rw [withFile_of_file hf, withFile_of_file hf]

end Failure

/-- What ends a computation early. -/
inductive Fault where
  | failure (f : Failure)
  | invalid (v : InvalidValue)
  deriving DecidableEq, Repr

namespace Fault

def message : Fault → String
  | .failure f => f.report
  | .invalid v => v.message

/-- Only failures have a file to fill in. -/
def withFile (fault : Fault) (file : Option String) : Fault :=
  match fault with
  | .failure f => .failure (f.withFile file)
  | .invalid v => .invalid v

@[simp] theorem withFile_failure (f : Failure) (file : Option String) :
    (failure f).withFile file = failure (f.withFile file) := rfl

@[simp] theorem withFile_invalid (v : InvalidValue) (file : Option String) :
    (invalid v).withFile file = invalid v := rfl

@[simp] theorem withFile_none (fault : Fault) : fault.withFile none = fault := by
  cases fault <;> simp

@[simp] theorem withFile_withFile_self (fault : Fault) (file : Option String) :
    (fault.withFile file).withFile file = fault.withFile file := by
  cases fault <;> simp

end Fault

end AccumulatorAsm
