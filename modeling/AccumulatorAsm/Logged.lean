/-
  AccumulatorAsm.Logged

  Computations that note events and may fail. The events up to a failure stay in the log.
-/

import AccumulatorAsm.Failure
import AccumulatorAsm.Notice

namespace AccumulatorAsm

structure Logged (α : Type) where
  log : List Notice
  result : Except Fault α

namespace Logged

variable {α β γ : Type}

@[ext] theorem ext {x y : Logged α} (hl : x.log = y.log) (hr : x.result = y.result) : x = y := by
  cases x; cases y; simp_all

def ok (a : α) : Logged α := ⟨[], .ok a⟩

def fail (fault : Fault) : Logged α := ⟨[], .error fault⟩

def ofExcept (result : Except Fault α) : Logged α := ⟨[], result⟩

def bind (x : Logged α) (f : α → Logged β) : Logged β :=
  match x.result with
  | .ok a => ⟨x.log ++ (f a).log, (f a).result⟩
  | .error fault => ⟨x.log, .error fault⟩

instance : Monad Logged where
  pure := ok
  bind := bind

/-- Notes events in front of a computation. -/
def noting (ns : List Notice) (x : Logged α) : Logged α := ⟨ns ++ x.log, x.result⟩

/-- Fills in the file of a failure. -/
def withFile (x : Logged α) (file : Option String) : Logged α :=
  ⟨x.log, x.result.mapError (·.withFile file)⟩

/-! ## Laws -/

@[simp] theorem log_pure (a : α) : (pure a : Logged α).log = [] := rfl

@[simp] theorem result_pure (a : α) : (pure a : Logged α).result = .ok a := rfl

theorem bind_of_ok {x : Logged α} {a : α} (h : x.result = .ok a) (f : α → Logged β) :
    x >>= f = ⟨x.log ++ (f a).log, (f a).result⟩ := by
  show bind x f = _
  simp [bind, h]

theorem bind_of_error {x : Logged α} {fault : Fault} (h : x.result = .error fault)
    (f : α → Logged β) : x >>= f = ⟨x.log, .error fault⟩ := by
  show bind x f = _
  simp [bind, h]

theorem bind_ok (x : Logged α) : bind x ok = x := by
  cases h : x.result <;> ext1 <;> simp [bind, ok, h]

theorem ok_bind (a : α) (f : α → Logged β) : bind (ok a) f = f a := by
  ext1 <;> simp [bind, ok]

theorem bind_assoc (x : Logged α) (f : α → Logged β) (g : β → Logged γ) :
    bind (bind x f) g = bind x fun a => bind (f a) g := by
  cases hx : x.result with
  | error _ => ext1 <;> simp [bind, hx]
  | ok a => cases hf : (f a).result <;> ext1 <;> simp [bind, hx, hf]

instance : LawfulMonad Logged :=
  LawfulMonad.mk' Logged bind_ok ok_bind bind_assoc

/-! ## Files of failures -/

@[simp] theorem withFile_pure (a : α) (file : Option String) :
    (pure a : Logged α).withFile file = pure a := rfl

@[simp] theorem withFile_fail (fault : Fault) (file : Option String) :
    (fail fault : Logged α).withFile file = fail (fault.withFile file) := rfl

@[simp] theorem withFile_noting (ns : List Notice) (x : Logged α) (file : Option String) :
    (noting ns x).withFile file = noting ns (x.withFile file) := rfl

/-- A file is filled in at the end of a sequence or in each of its parts. -/
theorem withFile_bind (x : Logged α) (f : α → Logged β) (file : Option String) :
    (x >>= f).withFile file = x.withFile file >>= fun a => (f a).withFile file := by
  cases h : x.result with
  | ok a =>
    have hx : (x.withFile file).result = .ok a := by rw [withFile, h]; rfl
    rw [bind_of_ok h, bind_of_ok hx]
    rfl
  | error fault =>
    have hx : (x.withFile file).result = .error (fault.withFile file) := by rw [withFile, h]; rfl
    rw [bind_of_error h, bind_of_error hx]
    rfl

@[simp] theorem withFile_withFile_self (x : Logged α) (file : Option String) :
    (x.withFile file).withFile file = x.withFile file := by
  obtain ⟨log, result⟩ := x
  cases result with
  | ok a => rfl
  | error fault =>
    show (⟨log, .error ((fault.withFile file).withFile file)⟩ : Logged α) = _
    rw [Fault.withFile_withFile_self]
    rfl

@[simp] theorem withFile_none (x : Logged α) : x.withFile none = x := by
  obtain ⟨log, result⟩ := x
  cases result with
  | ok a => rfl
  | error fault =>
    show (⟨log, .error (fault.withFile none)⟩ : Logged α) = _
    rw [Fault.withFile_none]

/-! ## Results -/

@[simp] theorem result_fail (fault : Fault) : (fail fault : Logged α).result = .error fault := rfl

@[simp] theorem result_ofExcept (result : Except Fault α) : (ofExcept result).result = result :=
  rfl

@[simp] theorem result_noting (ns : List Notice) (x : Logged α) :
    (noting ns x).result = x.result := rfl

@[simp] theorem log_noting (ns : List Notice) (x : Logged α) :
    (noting ns x).log = ns ++ x.log := rfl

@[simp] theorem noting_nil (x : Logged α) : noting [] x = x := rfl

@[simp] theorem log_withFile (x : Logged α) (file : Option String) :
    (x.withFile file).log = x.log := rfl

/-- A sequence succeeds when both of its parts do. -/
theorem result_bind_eq_ok {x : Logged α} {f : α → Logged β} {b : β} :
    (x >>= f).result = .ok b ↔ ∃ a, x.result = .ok a ∧ (f a).result = .ok b := by
  cases h : x.result with
  | ok a => simp [bind_of_ok h]
  | error fault => simp [bind_of_error h]

/-- A sequence fails with the fault of the first part that does. -/
theorem result_bind_eq_error {x : Logged α} {f : α → Logged β} {fault : Fault} :
    (x >>= f).result = .error fault ↔
      x.result = .error fault ∨ ∃ a, x.result = .ok a ∧ (f a).result = .error fault := by
  cases h : x.result with
  | ok a => simp [bind_of_ok h]
  | error fault => simp [bind_of_error h]

theorem result_map_eq_ok {x : Logged α} {f : α → β} {b : β} :
    (f <$> x).result = .ok b ↔ ∃ a, x.result = .ok a ∧ f a = b := by
  rw [← bind_pure_comp, result_bind_eq_ok]
  simp

@[simp] theorem log_map (x : Logged α) (f : α → β) : (f <$> x).log = x.log := by
  rw [← bind_pure_comp]
  cases h : x.result with
  | ok a => simp [bind_of_ok h]
  | error fault => simp [bind_of_error h]

theorem result_map_eq_error {x : Logged α} {f : α → β} {fault : Fault} :
    (f <$> x).result = .error fault ↔ x.result = .error fault := by
  rw [← bind_pure_comp, result_bind_eq_error]
  simp

theorem result_withFile_of_ok {x : Logged α} {a : α} (h : x.result = .ok a)
    (file : Option String) : (x.withFile file).result = .ok a := by
  rw [withFile, h]
  rfl

theorem result_withFile_of_error {x : Logged α} {fault : Fault} (h : x.result = .error fault)
    (file : Option String) : (x.withFile file).result = .error (fault.withFile file) := by
  rw [withFile, h]
  rfl

theorem result_withFile_eq_ok {x : Logged α} {file : Option String} {a : α} :
    (x.withFile file).result = .ok a ↔ x.result = .ok a := by
  cases h : x.result with
  | ok b => rw [result_withFile_of_ok h]
  | error fault => simp [result_withFile_of_error h]

theorem result_withFile_eq_error {x : Logged α} {file : Option String} {fault : Fault} :
    (x.withFile file).result = .error fault ↔
      ∃ fault', x.result = .error fault' ∧ fault'.withFile file = fault := by
  cases h : x.result with
  | ok a => simp [result_withFile_of_ok h]
  | error fault' => simp [result_withFile_of_error h]

end Logged

end AccumulatorAsm
