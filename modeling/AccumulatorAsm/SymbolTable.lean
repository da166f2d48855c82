/-
  AccumulatorAsm.SymbolTable

  Where labels are defined and used. Both sides list the names in the order in which they first
  occur. The last definition of a name counts; every use is kept.
-/

import AccumulatorAsm.Cell
import AccumulatorAsm.Logged

namespace AccumulatorAsm

/-! ## Lists of named entries -/

namespace Entries

variable {α : Type}

/-- Sets the entry of a name: a known name keeps its place, a new one goes to the end. -/
def put (name : String) (a : α) : List (String × α) → List (String × α)
  | [] => [(name, a)]
  | (n, b) :: rest => if n = name then (n, a) :: rest else (n, b) :: put name a rest

theorem lookup_put (name n : String) (a : α) (es : List (String × α)) :
    (put name a es).lookup n = if n = name then some a else es.lookup n := by
  induction es with
  | nil => by_cases h : n = name <;> simp [put, h]
  | cons e es ih =>
    obtain ⟨m, b⟩ := e
    by_cases hm : m = name
    · subst hm
      by_cases hn : n = m
      · simp [put, hn]
      · simp [put, List.lookup_cons, hn, beq_eq_false_iff_ne.mpr hn]
    · by_cases hn : n = m
      · subst hn
        simp [put, hm]
      · simp [put, hm, List.lookup_cons, beq_eq_false_iff_ne.mpr hn, ih]

/-- A new name goes to the end of the names, a known one changes none of them. -/
theorem names_put (name : String) (a : α) (es : List (String × α)) :
    (put name a es).map Prod.fst =
      if name ∈ es.map Prod.fst then es.map Prod.fst else es.map Prod.fst ++ [name] := by
  induction es with
  | nil => simp [put]
  | cons e es ih =>
    obtain ⟨m, b⟩ := e
    by_cases hm : m = name
    · subst hm; simp [put]
    · have hm' : ¬ name = m := fun h => hm h.symm
      by_cases hin : name ∈ es.map Prod.fst
      · simp only [put, hm, if_false, List.map_cons, ih, hin, if_true, List.mem_cons, hm',
          false_or]
      · simp only [put, hm, if_false, List.map_cons, ih, hin, List.mem_cons, hm', false_or,
          List.cons_append]

end Entries

/-! ## The table -/

structure SymbolTable where
  /-- The index of the cell that defines a name. -/
  pointees : List (String × Nat) := []
  /-- The indices of the cells that refer to a name, in ascending order. -/
  pointers : List (String × List Nat) := []
  deriving DecidableEq, Repr

namespace SymbolTable

def address? (t : SymbolTable) (name : String) : Option Nat :=
  t.pointees.lookup name

def sites (t : SymbolTable) (name : String) : List Nat :=
  (t.pointers.lookup name).getD []

def define (t : SymbolTable) (name : String) (index : Nat) : SymbolTable :=
  { t with pointees := Entries.put name index t.pointees }

def use (t : SymbolTable) (name : String) (index : Nat) : SymbolTable :=
  { t with pointers := Entries.put name (t.sites name ++ [index]) t.pointers }

/-- The warning for a cell whose label is defined already. -/
def redefinition (t : SymbolTable) (index : Nat) (c : Cell) : List Notice :=
  match c.defines with
  | none => []
  | some name =>
    match t.address? name with
    | some previous => [.labelRedefined name index previous]
    | none => []

/-- The table with one more cell. -/
def add (t : SymbolTable) (index : Nat) (c : Cell) : SymbolTable :=
  let t := match c.defines with
    | some name => t.define name index
    | none => t
  match c.ref with
  | some name => t.use name index
  | none => t

/-- Takes in cells from an index on. -/
def addAll : SymbolTable → Nat → List Cell → List Notice × SymbolTable
  | t, _, [] => ([], t)
  | t, index, c :: cs =>
    let notices := t.redefinition index c
    let (more, last) := addAll (t.add index c) (index + 1) cs
    (notices ++ more, last)

def ofCells (cells : List Cell) : SymbolTable :=
  (addAll {} 0 cells).2

/-- The warnings that come with `ofCells`. -/
def redefinitions (cells : List Cell) : List Notice :=
  (addAll {} 0 cells).1

end SymbolTable

end AccumulatorAsm
