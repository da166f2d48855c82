/-
  AccumulatorAsm.Proofs.SymbolTable

  What the table of a cell list holds, said of the list itself. The address of a name is the
  index of the last cell that defines it; the sites of a name are the indices of all cells that
  refer to it; and the names with sites stand in the order of their first reference.

  Every statement is proved along the list from its end: the table of `cells ++ [c]` is the table
  of `cells` with `c` added.
-/

import Mathlib.Data.List.Basic
import Mathlib.Data.List.Induction
import Mathlib.Order.Bounds.Defs
import AccumulatorAsm.SymbolTable

namespace AccumulatorAsm

/-! ## Definitions and uses in a cell list -/

namespace Cell

/-- The indices of the cells that define a name. -/
def definitions (cells : List Cell) (name : String) : List Nat :=
  cells.findIdxs (·.defines = some name)

/-- The index of the last cell that defines a name. -/
def definition? (cells : List Cell) (name : String) : Option Nat :=
  (definitions cells name).getLast?

/-- The indices of the cells that refer to a name. -/
def uses (cells : List Cell) (name : String) : List Nat :=
  cells.findIdxs (·.ref = some name)

/-- The names that cells refer to, in order and as often as they do. -/
def references (cells : List Cell) : List String :=
  cells.filterMap (·.ref)

/-- The names that cells define, in order and as often as they do. -/
def labels (cells : List Cell) : List String :=
  cells.filterMap (·.defines)

theorem definitions_append (cells more : List Cell) (name : String) :
    definitions (cells ++ more) name =
      definitions cells name ++ (definitions more name).map (· + cells.length) := by
  unfold definitions
  rw [List.findIdxs_append, Nat.zero_add, ← List.findIdxs_start]

theorem uses_append (cells more : List Cell) (name : String) :
    uses (cells ++ more) name = uses cells name ++ (uses more name).map (· + cells.length) := by
  unfold uses
  rw [List.findIdxs_append, Nat.zero_add, ← List.findIdxs_start]

/-- A later definition wins over an earlier one. -/
theorem definition?_append (cells more : List Cell) (name : String) :
    definition? (cells ++ more) name =
      ((definition? more name).map (· + cells.length)).or (definition? cells name) := by
  unfold definition?
  rw [definitions_append, List.getLast?_append, List.getLast?_map]

@[simp] theorem definition?_nil (name : String) : definition? [] name = none := rfl

theorem definition?_singleton (c : Cell) (name : String) :
    definition? [c] name = if c.defines = some name then some 0 else none := by
  by_cases h : c.defines = some name <;> simp [definition?, definitions, h]

/-- Only a name that no cell defines is without definition. -/
theorem definition?_eq_none_iff {cells : List Cell} {name : String} :
    definition? cells name = none ↔ ∀ c ∈ cells, c.defines ≠ some name := by
  simp [definition?, definitions, List.findIdxs_eq_nil_iff]

/-- Where a label is defined can be told from the labels alone. -/
theorem definition?_eq_of_map_defines_eq {cells cells' : List Cell}
    (h : cells.map (·.defines) = cells'.map (·.defines)) (name : String) :
    definition? cells name = definition? cells' name := by
  have hmap : ∀ ds : List Cell, definitions ds name =
      (ds.map (·.defines)).findIdxs (fun d => decide (d = some name)) :=
    fun ds => by rw [List.findIdxs_map]; rfl
  rw [definition?, definition?, hmap, hmap, h]

theorem definition?_lt {cells : List Cell} {name : String} {index : Nat}
    (h : definition? cells name = some index) : index < cells.length := by
  have hmem : index ∈ cells.findIdxs (·.defines = some name) := List.mem_of_getLast? h
  obtain ⟨hlt, -⟩ := List.mem_findIdxs_iff_exists_getElem_pos.mp hmem
  exact hlt

/-- The definition of a name is the greatest index of a cell that defines it. -/
theorem isGreatest_of_definition? {cells : List Cell} {name : String} {index : Nat}
    (h : definition? cells name = some index) :
    IsGreatest {i | ∃ c, cells[i]? = some c ∧ c.defines = some name} index := by
  induction cells using List.reverseRecOn with
  | nil => cases h
  | append_singleton cells c ih =>
    rw [definition?_append, definition?_singleton] at h
    by_cases hc : c.defines = some name
    · -- the last cell is behind all others
      obtain rfl : cells.length = index := by simpa [hc] using h
      refine ⟨⟨c, by simp, hc⟩, ?_⟩
      rintro i ⟨d, hd, -⟩
      obtain ⟨hlt, -⟩ := List.getElem?_eq_some_iff.mp hd
      rw [List.length_append, List.length_singleton] at hlt
      exact Nat.le_of_lt_succ hlt
    · -- the last cell is none of those that count
      have hdef : definition? cells name = some index := by simpa [hc] using h
      obtain ⟨⟨d, hd, hdefines⟩, hupper⟩ := ih hdef
      have hindex := definition?_lt hdef
      refine ⟨⟨d, by rwa [List.getElem?_append_left hindex], hdefines⟩, ?_⟩
      rintro i ⟨e, he, hedefines⟩
      rcases Nat.lt_trichotomy i cells.length with hlt | rfl | hgt
      · rw [List.getElem?_append_left hlt] at he
        exact hupper ⟨e, he, hedefines⟩
      · rw [List.getElem?_concat_length] at he
        exact absurd (Option.some.inj he ▸ hedefines) hc
      · rw [List.getElem?_eq_none (by rw [List.length_append, List.length_singleton]; exact hgt)]
          at he
        cases he

theorem uses_singleton (c : Cell) (name : String) :
    uses [c] name = if c.ref = some name then [0] else [] := by
  by_cases h : c.ref = some name <;> simp [uses, h]

theorem mem_uses {cells : List Cell} {name : String} {index : Nat} :
    index ∈ uses cells name ↔ ∃ c, cells[index]? = some c ∧ c.ref = some name := by
  unfold uses
  rw [List.mem_findIdxs_iff_exists_getElem_pos]
  constructor
  · rintro ⟨h, hp⟩
    exact ⟨cells[index], List.getElem?_eq_getElem h, of_decide_eq_true hp⟩
  · rintro ⟨c, hc, hr⟩
    obtain ⟨h, rfl⟩ := List.getElem?_eq_some_iff.mp hc
    exact ⟨h, decide_eq_true hr⟩

theorem uses_nodup (cells : List Cell) (name : String) : (uses cells name).Nodup :=
  List.nodup_findIdxs

end Cell

/-! ## Entries with different names -/

namespace Entries

variable {α : Type}

theorem nodup_put {es : List (String × α)} (h : (es.map Prod.fst).Nodup) (name : String) (a : α) :
    ((put name a es).map Prod.fst).Nodup := by
  rw [names_put]
  split
  · exact h
  · next hn =>
    refine List.nodup_append.mpr ⟨h, by simp, ?_⟩
    rintro n hin m hm rfl
    exact hn (List.mem_singleton.mp hm ▸ hin)

/-- Entries with different names are told by looking up the names. -/
theorem eq_map_lookup {es : List (String × α)} (h : (es.map Prod.fst).Nodup) (d : α) :
    es = (es.map Prod.fst).map fun n => (n, (es.lookup n).getD d) := by
  induction es with
  | nil => rfl
  | cons e es ih =>
    obtain ⟨m, a⟩ := e
    obtain ⟨hm, hes⟩ := List.nodup_cons.mp h
    -- the first entry hides no later name
    have hrest : ∀ n ∈ es.map Prod.fst,
        (n, (((m, a) :: es).lookup n).getD d) = (n, (es.lookup n).getD d) := by
      intro n hn
      have hne : (n == m) = false := beq_eq_false_iff_ne.mpr fun hnm => hm (hnm ▸ hn)
      rw [List.lookup_cons, hne]
    rw [List.map_cons, List.map_cons, List.map_congr_left hrest, ← ih hes]
    simp

end Entries

/-! ## Names without repetition -/

/-- A name that is there already adds nothing, any other goes to the end. -/
theorem eraseDups_concat {α : Type} [BEq α] [LawfulBEq α] (l : List α) (a : α) :
    (l ++ [a]).eraseDups = if a ∈ l then l.eraseDups else l.eraseDups ++ [a] := by
  rw [List.eraseDups_append]
  by_cases ha : a ∈ l
  · simp [ha, List.removeAll]
  · simp [ha, List.removeAll, List.eraseDups_cons]

/-! ## The table of a cell list -/

namespace SymbolTable

theorem addAll_append (t : SymbolTable) (index : Nat) (cells more : List Cell) :
    addAll t index (cells ++ more) =
      ((addAll t index cells).1 ++ (addAll (addAll t index cells).2 (index + cells.length) more).1,
        (addAll (addAll t index cells).2 (index + cells.length) more).2) := by
  induction cells generalizing t index with
  | nil => simp [addAll]
  | cons c cells ih =>
    have harith : index + 1 + cells.length = index + (cells.length + 1) := by omega
    simp only [List.cons_append, addAll, ih, List.length_cons, harith, List.append_assoc]

@[simp] theorem ofCells_nil : ofCells [] = {} := rfl

theorem ofCells_append_singleton (cells : List Cell) (c : Cell) :
    ofCells (cells ++ [c]) = (ofCells cells).add cells.length c := by
  simp [ofCells, addAll_append, addAll]

/-- A cell changes no address but that of the name it defines. -/
theorem address?_add (t : SymbolTable) (index : Nat) (c : Cell) (name : String) :
    (t.add index c).address? name =
      if c.defines = some name then some index else t.address? name := by
  -- references are kept on the other side of the table
  have hdefine : ∀ n, (t.define n index).address? name =
      if n = name then some index else t.address? name := by
    intro n
    rw [address?, define, Entries.lookup_put]
    by_cases h : name = n
    · simp [h]
    · simp [h, Ne.symm h, address?]
  cases hd : c.defines with
  | none => cases hr : c.ref <;> simp [add, hd, hr, use, address?]
  | some n =>
    have := hdefine n
    cases hr : c.ref <;> simpa [add, hd, hr, use, address?] using this

theorem sites_use (t : SymbolTable) (index : Nat) (n name : String) :
    (t.use n index).sites name = if n = name then t.sites name ++ [index] else t.sites name := by
  rw [sites, use, Entries.lookup_put]
  by_cases h : name = n
  · simp [h]
  · simp [h, Ne.symm h, sites]

/-- A cell is one more site of the name it refers to and of no other. -/
theorem sites_add (t : SymbolTable) (index : Nat) (c : Cell) (name : String) :
    (t.add index c).sites name =
      if c.ref = some name then t.sites name ++ [index] else t.sites name := by
  cases hr : c.ref with
  | none => cases hd : c.defines <;> simp [add, hd, hr, define, sites]
  | some n =>
    cases hd : c.defines with
    | none => simp [add, hd, hr, sites_use]
    | some m =>
      have hsites : (t.define m index).sites name = t.sites name := rfl
      simp [add, hd, hr, sites_use, hsites]

theorem names_add (t : SymbolTable) (index : Nat) (c : Cell) :
    (t.add index c).pointers.map Prod.fst =
      match c.ref with
      | none => t.pointers.map Prod.fst
      | some n => if n ∈ t.pointers.map Prod.fst then t.pointers.map Prod.fst
          else t.pointers.map Prod.fst ++ [n] := by
  cases hr : c.ref with
  | none => cases hd : c.defines <;> simp [add, hd, hr, define]
  | some n => cases hd : c.defines <;> simp only [add, hd, hr, define, use, Entries.names_put]

theorem definedNames_add (t : SymbolTable) (index : Nat) (c : Cell) :
    (t.add index c).pointees.map Prod.fst =
      match c.defines with
      | none => t.pointees.map Prod.fst
      | some n => if n ∈ t.pointees.map Prod.fst then t.pointees.map Prod.fst
          else t.pointees.map Prod.fst ++ [n] := by
  cases hd : c.defines with
  | none => cases hr : c.ref <;> simp [add, hd, hr, use]
  | some n => cases hr : c.ref <;> simp only [add, hd, hr, define, use, Entries.names_put]

/-- The names with an address are those defined, in the order of their first definition. -/
theorem definedNames_ofCells (cells : List Cell) :
    (ofCells cells).pointees.map Prod.fst = (Cell.labels cells).eraseDups := by
  induction cells using List.reverseRecOn with
  | nil => rfl
  | append_singleton cells c ih =>
    rw [ofCells_append_singleton, definedNames_add, ih]
    cases hd : c.defines with
    | none => simp [Cell.labels, hd]
    | some n =>
      have hlast : Cell.labels (cells ++ [c]) = Cell.labels cells ++ [n] := by
        simp [Cell.labels, hd]
      rw [hlast, eraseDups_concat]
      simp only [List.mem_eraseDups]

/-- The address of a name is the index of its last definition. -/
theorem address?_ofCells (cells : List Cell) (name : String) :
    (ofCells cells).address? name = Cell.definition? cells name := by
  induction cells using List.reverseRecOn with
  | nil => rfl
  | append_singleton cells c ih =>
    rw [ofCells_append_singleton, address?_add, Cell.definition?_append,
      Cell.definition?_singleton, ih]
    split <;> simp

/-- The sites of a name are all its uses. -/
theorem sites_ofCells (cells : List Cell) (name : String) :
    (ofCells cells).sites name = Cell.uses cells name := by
  induction cells using List.reverseRecOn with
  | nil => rfl
  | append_singleton cells c ih =>
    rw [ofCells_append_singleton, sites_add, Cell.uses_append, Cell.uses_singleton, ih]
    split <;> simp

/-- The names with sites are those referred to, in the order of their first reference. -/
theorem names_ofCells (cells : List Cell) :
    (ofCells cells).pointers.map Prod.fst = (Cell.references cells).eraseDups := by
  induction cells using List.reverseRecOn with
  | nil => rfl
  | append_singleton cells c ih =>
    rw [ofCells_append_singleton, names_add, ih]
    cases hr : c.ref with
    | none => simp [Cell.references, hr]
    | some n =>
      have hlast : Cell.references (cells ++ [c]) = Cell.references cells ++ [n] := by
        simp [Cell.references, hr]
      rw [hlast, eraseDups_concat]
      simp only [List.mem_eraseDups]

theorem nodup_names_ofCells (cells : List Cell) :
    ((ofCells cells).pointers.map Prod.fst).Nodup := by
  induction cells using List.reverseRecOn with
  | nil => exact List.nodup_nil
  | append_singleton cells c ih =>
    rw [ofCells_append_singleton]
    cases hr : c.ref with
    | none => cases hd : c.defines <;> simpa [add, hd, hr, define] using ih
    | some n =>
      cases hd : c.defines <;> simpa only [add, hd, hr, use, define] using Entries.nodup_put ih n _

/-- The whole side of the references: each name once, with all its uses. -/
theorem pointers_ofCells (cells : List Cell) :
    (ofCells cells).pointers =
      (Cell.references cells).eraseDups.map fun n => (n, Cell.uses cells n) := by
  have hsites : ∀ n, ((ofCells cells).pointers.lookup n).getD [] = Cell.uses cells n :=
    sites_ofCells cells
  rw [Entries.eq_map_lookup (nodup_names_ofCells cells) [], names_ofCells]
  simp only [hsites]

end SymbolTable

end AccumulatorAsm
