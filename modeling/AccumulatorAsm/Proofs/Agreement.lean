/-
  AccumulatorAsm.Proofs.Agreement

  Two runs side by side. Results agree when both are values related by `S` or both are faults
  related by `F`; agreement passes through a sequence of computations, so a comparison of whole
  runs is put together from comparisons of their steps.

  The relations `SameUpToLine` leave open on which line something was written: the two lines
  need only be related by `R`, and everything else is the same.
-/

import Mathlib.Data.Option.Basic
import AccumulatorAsm.Cause
import AccumulatorAsm.Cell
import AccumulatorAsm.Instruction
import AccumulatorAsm.Logged

namespace AccumulatorAsm

/-! ## Results of two runs -/

/-- Two results that both succeed with values related by `S`, or both fail with faults related
    by `F`. -/
inductive Agree {α β : Type} (F : Fault → Fault → Prop) (S : α → β → Prop) :
    Except Fault α → Except Fault β → Prop
  | ok {a : α} {b : β} (h : S a b) : Agree F S (.ok a) (.ok b)
  | error {f g : Fault} (h : F f g) : Agree F S (.error f) (.error g)

namespace Agree

variable {α β γ δ : Type} {F : Fault → Fault → Prop} {S : α → β → Prop} {T : γ → δ → Prop}

theorem bind {x : Logged α} {y : Logged β} {f : α → Logged γ} {g : β → Logged δ}
    (hxy : Agree F S x.result y.result)
    (hfg : ∀ a b, S a b → Agree F T (f a).result (g b).result) :
    Agree F T (x >>= f).result (y >>= g).result := by
  generalize hx : x.result = r, hy : y.result = t at hxy
  cases hxy with
  | ok h =>
    rw [Logged.bind_of_ok hx, Logged.bind_of_ok hy]
    exact hfg _ _ h
  | error h =>
    rw [Logged.bind_of_error hx, Logged.bind_of_error hy]
    exact .error h

theorem map {x : Logged α} {y : Logged β} {f : α → γ} {g : β → δ}
    (hxy : Agree F S x.result y.result) (hfg : ∀ a b, S a b → T (f a) (g b)) :
    Agree F T (f <$> x).result (g <$> y).result := by
  rw [← bind_pure_comp, ← bind_pure_comp]
  exact hxy.bind fun a b h => .ok (hfg a b h)

/-- Files are filled in on both sides. -/
theorem withFile {x : Logged α} {y : Logged β} {file : Option String}
    (hxy : Agree F S x.result y.result)
    (hF : ∀ f g, F f g → F (f.withFile file) (g.withFile file)) :
    Agree F S (x.withFile file).result (y.withFile file).result := by
  generalize hx : x.result = r, hy : y.result = t at hxy
  cases hxy with
  | ok h =>
    rw [Logged.result_withFile_of_ok hx, Logged.result_withFile_of_ok hy]
    exact .ok h
  | error h =>
    rw [Logged.result_withFile_of_error hx, Logged.result_withFile_of_error hy]
    exact .error (hF _ _ h)

end Agree

/-! ## Data that differ in their lines -/

variable {R : Int → Int → Prop}

/-- Failures that differ in the line at most; it is known in both or in none. The report shows
    the line and may differ with it. -/
structure Failure.SameUpToLine (R : Int → Int → Prop) (f g : Failure) : Prop where
  kind : g.kind = f.kind
  diagnostic : g.diagnostic = { f.diagnostic with line := g.diagnostic.line }
  line : Option.Rel R f.diagnostic.line g.diagnostic.line

inductive Fault.SameUpToLine (R : Int → Int → Prop) : Fault → Fault → Prop
  | failure {f g : Failure} (h : f.SameUpToLine R g) : SameUpToLine R (.failure f) (.failure g)
  /-- Invalid values have no line. -/
  | invalid (v : InvalidValue) : SameUpToLine R (.invalid v) (.invalid v)

structure Instruction.SameUpToLine (R : Int → Int → Prop) (i j : Instruction) : Prop where
  same : j = { i with line := j.line }
  line : R i.line j.line

structure Cell.SameUpToLine (R : Int → Int → Prop) (c d : Cell) : Prop where
  same : d = { c with line := d.line }
  line : Option.Rel R c.line d.line

theorem Failure.SameUpToLine.withFile {f g : Failure} (h : f.SameUpToLine R g)
    (file : Option String) : (f.withFile file).SameUpToLine R (g.withFile file) := by
  have hfile : g.diagnostic.file = f.diagnostic.file := by
    rw [h.diagnostic]
  cases file with
  | none => simpa using h
  | some name =>
    cases hf : f.diagnostic.file with
    | some old =>
      rw [withFile_of_file hf, withFile_of_file (hfile.trans hf)]
      exact h
    | none =>
      have hg := hfile.trans hf
      refine ⟨?_, ?_, ?_⟩
      · rw [withFile_kind, withFile_kind, h.kind]
      · simp only [Failure.withFile, hf, hg, ofDiagnostic]
        rw [h.diagnostic]
      · simpa only [Failure.withFile, hf, hg, ofDiagnostic] using h.line

theorem Fault.SameUpToLine.withFile {f g : Fault} (h : f.SameUpToLine R g)
    (file : Option String) : (f.withFile file).SameUpToLine R (g.withFile file) := by
  cases h with
  | failure h => exact .failure (h.withFile file)
  | invalid v => exact .invalid v

/-- A cause reads the same at every line. -/
theorem Cause.sameUpToLine_atLine (cause : Cause) {l m : Option Int} (h : Option.Rel R l m)
    (file : Option String) : (cause.atLine l file).SameUpToLine R (cause.atLine m file) :=
  ⟨rfl, rfl, h⟩

theorem Failure.sameUpToLine_overCapacity (generated length : Int) (file : Option String) :
    (overCapacity generated length none none file).SameUpToLine R
      (overCapacity generated length none none file) :=
  ⟨rfl, rfl, .none⟩

end AccumulatorAsm
