/-
  AccumulatorAsm.Proofs.SymbolTable.Exact

  The symbol table told by the indices of the cells, and by nothing else: which names stand in
  it and in which order, which address each has, and where each is used. The warnings of a table
  are the cells whose label was defined before, each with the definition right before it
  (`exact_ofCells`).

  Names are followed along the list from its end. A name that a new last cell brings in first
  occurs there, behind all others; whatever occurred before keeps its first index.
-/

import Mathlib.Data.List.Nodup
import Mathlib.Data.Nat.Find
import Mathlib.Order.Bounds.Basic
import AccumulatorAsm.Proofs.SymbolTable

namespace AccumulatorAsm

/-! ## Names at indices -/

namespace Cell

/-- A name stands in a part of the cell at an index. -/
def NamedAt (part : Cell → Option String) (cells : List Cell) (name : String) (i : Nat) : Prop :=
  ∃ c, cells[i]? = some c ∧ part c = some name

/-- The first index of a name is before that of another. -/
def FirstBefore (part : Cell → Option String) (cells : List Cell) (name later : String) : Prop :=
  ∃ i j, IsLeast {k | NamedAt part cells name k} i ∧
    IsLeast {k | NamedAt part cells later k} j ∧ i < j

/-- All names that stand in a part of some cell, in the order in which they first do. -/
structure ListsNames (part : Cell → Option String) (cells : List Cell) (names : List String) :
    Prop where
  mem_iff : ∀ name, name ∈ names ↔ ∃ i, NamedAt part cells name i
  inOrder : names.Pairwise (FirstBefore part cells)

variable {part : Cell → Option String} {cells : List Cell} {c : Cell} {name later : String}
  {i : Nat}

theorem NamedAt.lt (h : NamedAt part cells name i) : i < cells.length := by
  obtain ⟨d, hd, -⟩ := h
  exact (List.getElem?_eq_some_iff.mp hd).1

/-- A cell at the end changes nothing before it. -/
theorem namedAt_concat_of_lt (h : i < cells.length) :
    NamedAt part (cells ++ [c]) name i ↔ NamedAt part cells name i := by
  unfold NamedAt
  rw [List.getElem?_append_left h]

theorem namedAt_concat_length :
    NamedAt part (cells ++ [c]) name cells.length ↔ part c = some name := by
  simp [NamedAt]

theorem namedAt_concat :
    NamedAt part (cells ++ [c]) name i ↔
      NamedAt part cells name i ∨ (i = cells.length ∧ part c = some name) := by
  constructor
  · intro h
    have hlt := h.lt
    rw [List.length_append, List.length_singleton] at hlt
    rcases Nat.lt_succ_iff_lt_or_eq.mp hlt with hi | rfl
    · exact .inl ((namedAt_concat_of_lt hi).mp h)
    · exact .inr ⟨rfl, namedAt_concat_length.mp h⟩
  · rintro (h | ⟨rfl, h⟩)
    · exact (namedAt_concat_of_lt h.lt).mpr h
    · exact namedAt_concat_length.mpr h

/-- A name that occurs somewhere has a first index. -/
theorem exists_isLeast_namedAt (h : ∃ i, NamedAt part cells name i) :
    ∃ i, IsLeast {k | NamedAt part cells name k} i := by
  classical
  exact ⟨Nat.find h, Nat.find_spec h, fun _ hk => Nat.find_min' h hk⟩

theorem isLeast_namedAt_concat (h : IsLeast {k | NamedAt part cells name k} i) :
    IsLeast {k | NamedAt part (cells ++ [c]) name k} i := by
  refine ⟨namedAt_concat.mpr (.inl h.1), ?_⟩
  intro k hk
  rcases namedAt_concat.mp hk with hk | ⟨rfl, -⟩
  · exact h.2 hk
  · exact Nat.le_of_lt (NamedAt.lt h.1)

/-- A new name first occurs at the end. -/
theorem isLeast_namedAt_length (hnew : ¬ ∃ i, NamedAt part cells name i)
    (hc : part c = some name) :
    IsLeast {k | NamedAt part (cells ++ [c]) name k} cells.length := by
  refine ⟨namedAt_concat_length.mpr hc, ?_⟩
  intro k hk
  rcases namedAt_concat.mp hk with hk | ⟨rfl, -⟩
  · exact absurd ⟨k, hk⟩ hnew
  · exact Nat.le_refl _

theorem exists_namedAt_concat :
    (∃ i, NamedAt part (cells ++ [c]) name i) ↔
      (∃ i, NamedAt part cells name i) ∨ part c = some name := by
  simp [namedAt_concat, exists_or]

/-! ## Names in their order -/

/-- The order of names stays with one more cell. -/
theorem FirstBefore.concat (h : FirstBefore part cells name later) (c : Cell) :
    FirstBefore part (cells ++ [c]) name later := by
  obtain ⟨i, j, hi, hj, hlt⟩ := h
  exact ⟨i, j, isLeast_namedAt_concat hi, isLeast_namedAt_concat hj, hlt⟩

/-- A new name comes behind all others. -/
theorem firstBefore_concat_of_new (hname : ∃ i, NamedAt part cells name i)
    (hnew : ¬ ∃ i, NamedAt part cells later i) (hc : part c = some later) :
    FirstBefore part (cells ++ [c]) name later := by
  obtain ⟨i, hi⟩ := exists_isLeast_namedAt hname
  exact ⟨i, cells.length, isLeast_namedAt_concat hi, isLeast_namedAt_length hnew hc,
    NamedAt.lt hi.1⟩

theorem FirstBefore.ne (h : FirstBefore part cells name later) : name ≠ later := by
  obtain ⟨i, j, hi, hj, hlt⟩ := h
  rintro rfl
  rw [hi.unique hj] at hlt
  exact Nat.lt_irrefl j hlt

theorem listsNames_nil : ListsNames part [] [] where
  mem_iff := by simp [NamedAt]
  inOrder := List.Pairwise.nil

namespace ListsNames

variable {names : List String}

/-- No name is listed twice. -/
theorem nodup (h : ListsNames part cells names) : names.Nodup :=
  h.inOrder.imp FirstBefore.ne

/-- A cell without a name, or with a name that is listed, adds nothing. -/
theorem concat_of_old (h : ListsNames part cells names)
    (hold : ∀ name, part c = some name → name ∈ names) :
    ListsNames part (cells ++ [c]) names where
  mem_iff name := by
    rw [exists_namedAt_concat, ← h.mem_iff]
    exact (or_iff_left_of_imp (hold name)).symm
  inOrder := h.inOrder.imp fun hbefore => hbefore.concat c

/-- A new name is listed last. -/
theorem concat_of_new (h : ListsNames part cells names) (hc : part c = some name)
    (hnew : name ∉ names) : ListsNames part (cells ++ [c]) (names ++ [name]) where
  mem_iff other := by
    rw [exists_namedAt_concat, ← h.mem_iff, hc, List.mem_append, List.mem_singleton,
      Option.some.injEq, eq_comm (a := name)]
  inOrder := by
    rw [List.pairwise_append]
    refine ⟨h.inOrder.imp fun hbefore => hbefore.concat c, List.pairwise_singleton _ _, ?_⟩
    intro other hother last hlast
    obtain rfl := List.mem_singleton.mp hlast
    exact firstBefore_concat_of_new ((h.mem_iff other).mp hother) (mt (h.mem_iff last).mpr hnew) hc

/-- The names with one more cell. -/
theorem concat (h : ListsNames part cells names) (c : Cell) :
    ListsNames part (cells ++ [c])
      (match part c with
        | none => names
        | some name => if name ∈ names then names else names ++ [name]) := by
  cases hc : part c with
  | none =>
    apply h.concat_of_old
    intro name hname
    cases hc.symm.trans hname
  | some name =>
    by_cases hmem : name ∈ names
    · simp only [hmem, if_true]
      apply h.concat_of_old
      intro other hother
      obtain rfl := Option.some.inj (hc.symm.trans hother)
      exact hmem
    · simp only [hmem, if_false]
      exact h.concat_of_new hc hmem

end ListsNames

/-- The definition that counts is the greatest index at which the name is defined. -/
theorem definition?_eq_some_iff :
    definition? cells name = some i ↔ IsGreatest {k | NamedAt Cell.defines cells name k} i := by
  constructor
  · exact isGreatest_of_definition?
  · intro h
    cases hd : definition? cells name with
    | none =>
      obtain ⟨d, hd', hname⟩ := h.1
      exact absurd hname (definition?_eq_none_iff.mp hd d (List.mem_of_getElem? hd'))
    | some j => rw [(isGreatest_of_definition? hd).unique h]

end Cell

/-- An entry is found under its name, if no other has that name. -/
theorem Entries.lookup_of_mem {α : Type} {es : List (String × α)}
    (h : (es.map Prod.fst).Nodup) {e : String × α} (he : e ∈ es) : es.lookup e.1 = some e.2 := by
  obtain ⟨before, after, rfl⟩ := List.append_of_mem he
  refine List.lookup_eq_some_iff.mpr ⟨before, after, rfl, ?_⟩
  intro d hd
  rw [List.map_append, List.map_cons] at h
  have hne : d.1 ≠ e.1 :=
    (List.nodup_append.mp h).2.2 d.1 (List.mem_map_of_mem hd) e.1 List.mem_cons_self
  simpa using hne.symm

/-! ## The table -/

namespace SymbolTable

open Cell (NamedAt ListsNames)

/-- A table that holds what the cells say, name by name and in order. -/
structure Exact (cells : List Cell) (t : SymbolTable) : Prop where
  definedNames : ListsNames Cell.defines cells (t.pointees.map Prod.fst)
  /-- The last definition counts. -/
  addresses : ∀ e ∈ t.pointees, IsGreatest {i | NamedAt Cell.defines cells e.1 i} e.2
  usedNames : ListsNames Cell.ref cells (t.pointers.map Prod.fst)
  /-- Every use is kept. -/
  sites : ∀ e ∈ t.pointers, e.2.Pairwise (· < ·) ∧ ∀ i, i ∈ e.2 ↔ NamedAt Cell.ref cells e.1 i
  /-- Each cell that waits for an address is a site of one name. -/
  partition : (t.pointers.flatMap Prod.snd).Perm (cells.findIdxs (!·.isResolved))

theorem listsNames_pointees (cells : List Cell) :
    ListsNames Cell.defines cells ((ofCells cells).pointees.map Prod.fst) := by
  induction cells using List.reverseRecOn with
  | nil => exact Cell.listsNames_nil
  | append_singleton cells c ih =>
    rw [ofCells_append_singleton, definedNames_add]
    exact ih.concat c

theorem listsNames_pointers (cells : List Cell) :
    ListsNames Cell.ref cells ((ofCells cells).pointers.map Prod.fst) := by
  induction cells using List.reverseRecOn with
  | nil => exact Cell.listsNames_nil
  | append_singleton cells c ih =>
    rw [ofCells_append_singleton, names_add]
    exact ih.concat c

/-- The sites of all names are the cells that wait for an address, each once. -/
theorem flatMap_sites_perm (cells : List Cell) :
    ((ofCells cells).pointers.flatMap Prod.snd).Perm (cells.findIdxs (!·.isResolved)) := by
  have hsites : (ofCells cells).pointers.flatMap Prod.snd =
      (Cell.references cells).eraseDups.flatMap (Cell.uses cells) := by
    rw [pointers_ofCells, List.flatMap_map]
  have hnodup : (Cell.references cells).eraseDups.Nodup := by
    rw [← names_ofCells]
    exact nodup_names_ofCells cells
  rw [hsites]
  refine (List.perm_ext_iff_of_nodup ?_ List.nodup_findIdxs).mpr ?_
  · -- a cell refers to one name only
    refine List.nodup_flatMap.mpr ⟨fun name _ => Cell.uses_nodup cells name, ?_⟩
    apply hnodup.imp
    intro name other hne i hi hi'
    obtain ⟨c, hc, hname⟩ := Cell.mem_uses.mp hi
    obtain ⟨d, hd, hother⟩ := Cell.mem_uses.mp hi'
    obtain rfl := Option.some.inj (hc.symm.trans hd)
    exact hne (Option.some.inj (hname.symm.trans hother))
  · intro i
    rw [List.mem_flatMap, List.mem_findIdxs_iff_exists_getElem_pos]
    constructor
    · rintro ⟨name, -, hi⟩
      obtain ⟨c, hc, hname⟩ := Cell.mem_uses.mp hi
      obtain ⟨hlt, rfl⟩ := List.getElem?_eq_some_iff.mp hc
      exact ⟨hlt, by simp [Cell.isResolved, hname]⟩
    · rintro ⟨hlt, hwaits⟩
      obtain ⟨name, hname⟩ : ∃ name, cells[i].ref = some name := by
        simpa [Cell.isResolved, Option.isNone_eq_false_iff, Option.isSome_iff_exists] using hwaits
      refine ⟨name, ?_, Cell.mem_uses.mpr ⟨cells[i], List.getElem?_eq_getElem hlt, hname⟩⟩
      exact List.mem_eraseDups.mpr (List.mem_filterMap.mpr ⟨_, List.getElem_mem hlt, hname⟩)

theorem exact_ofCells (cells : List Cell) : (ofCells cells).Exact cells where
  definedNames := listsNames_pointees cells
  addresses := by
    intro e he
    rw [← Cell.definition?_eq_some_iff, ← address?_ofCells]
    exact Entries.lookup_of_mem (listsNames_pointees cells).nodup he
  usedNames := listsNames_pointers cells
  sites := by
    intro e he
    have hsites : e.2 = Cell.uses cells e.1 := by
      rw [← sites_ofCells, SymbolTable.sites,
        Entries.lookup_of_mem (listsNames_pointers cells).nodup he, Option.getD_some]
    rw [hsites]
    exact ⟨List.pairwise_findIdxs, fun i => Cell.mem_uses⟩
  partition := flatMap_sites_perm cells

/-! ## The warnings -/

/-- A cell whose label was defined before, and the definition right before it. -/
structure Redefinition where
  name : String
  index : Nat
  previous : Nat
  deriving DecidableEq, Repr

namespace Redefinition

def notice (r : Redefinition) : Notice :=
  .labelRedefined r.name r.index r.previous

structure Occurs (cells : List Cell) (r : Redefinition) : Prop where
  defined : NamedAt Cell.defines cells r.name r.index
  previous : IsGreatest {i | NamedAt Cell.defines cells r.name i ∧ i < r.index} r.previous

/-- The redefinition that a cell at the end of others is, if it is one. -/
def atEnd? (cells : List Cell) (c : Cell) : Option Redefinition :=
  c.defines.bind fun name => (Cell.definition? cells name).map fun previous =>
    ⟨name, cells.length, previous⟩

variable {cells : List Cell} {c : Cell} {r : Redefinition}

theorem atEnd?_eq_some_iff :
    atEnd? cells c = some r ↔
      r.index = cells.length ∧ c.defines = some r.name ∧
        Cell.definition? cells r.name = some r.previous := by
  obtain ⟨name, index, previous⟩ := r
  simp only [atEnd?, Option.bind_eq_some_iff, Option.map_eq_some_iff, mk.injEq]
  constructor
  · rintro ⟨_, hname, _, hprevious, rfl, rfl, rfl⟩
    exact ⟨rfl, hname, hprevious⟩
  · rintro ⟨rfl, hname, hprevious⟩
    exact ⟨name, hname, previous, hprevious, rfl, rfl, rfl⟩

/-- A redefinition is one of those before the last cell or the last cell itself. -/
theorem occurs_concat : r.Occurs (cells ++ [c]) ↔ r.Occurs cells ∨ atEnd? cells c = some r := by
  -- only cells before the redefinition count for the definition before it
  have hbefore (h : r.index ≤ cells.length) :
      {i | NamedAt Cell.defines (cells ++ [c]) r.name i ∧ i < r.index} =
        {i | NamedAt Cell.defines cells r.name i ∧ i < r.index} := by
    ext i
    exact and_congr_left fun hi => Cell.namedAt_concat_of_lt (Nat.lt_of_lt_of_le hi h)
  have hlast : {i | NamedAt Cell.defines cells r.name i ∧ i < cells.length} =
      {i | NamedAt Cell.defines cells r.name i} := by
    ext i
    exact and_iff_left_of_imp Cell.NamedAt.lt
  rw [atEnd?_eq_some_iff, Cell.definition?_eq_some_iff]
  constructor
  · rintro ⟨hdefined, hprevious⟩
    rcases Cell.namedAt_concat.mp hdefined with hold | ⟨hindex, hname⟩
    · rw [hbefore (Nat.le_of_lt hold.lt)] at hprevious
      exact .inl ⟨hold, hprevious⟩
    · rw [hbefore (Nat.le_of_eq hindex), hindex, hlast] at hprevious
      exact .inr ⟨hindex, hname, hprevious⟩
  · rintro (⟨hdefined, hprevious⟩ | ⟨hindex, hname, hprevious⟩)
    · refine ⟨Cell.namedAt_concat.mpr (.inl hdefined), ?_⟩
      rwa [hbefore (Nat.le_of_lt hdefined.lt)]
    · refine ⟨Cell.namedAt_concat.mpr (.inr ⟨hindex, hname⟩), ?_⟩
      rwa [hbefore (Nat.le_of_eq hindex), hindex, hlast]

end Redefinition

theorem redefinitions_concat (cells : List Cell) (c : Cell) :
    redefinitions (cells ++ [c]) =
      redefinitions cells ++ (Redefinition.atEnd? cells c).toList.map (·.notice) := by
  have hlast : (ofCells cells).redefinition cells.length c =
      (Redefinition.atEnd? cells c).toList.map (·.notice) := by
    rw [redefinition, Redefinition.atEnd?]
    cases c.defines with
    | none => rfl
    | some name =>
      simp only [address?_ofCells, Option.bind_some]
      cases Cell.definition? cells name <;> rfl
  rw [← hlast, redefinitions, addAll_append, Nat.zero_add]
  simp [addAll, redefinitions, ofCells]

/-- The warnings are the redefinitions in the order of their indices. -/
theorem exists_redefinitions (cells : List Cell) :
    ∃ rs : List Redefinition, redefinitions cells = rs.map (·.notice) ∧
      rs.Pairwise (·.index < ·.index) ∧ ∀ r, r ∈ rs ↔ r.Occurs cells := by
  induction cells using List.reverseRecOn with
  | nil =>
    refine ⟨[], rfl, List.Pairwise.nil, fun r => iff_of_false List.not_mem_nil ?_⟩
    intro h
    exact Nat.not_lt_zero _ h.defined.lt
  | append_singleton cells c ih =>
    obtain ⟨rs, hnotices, hordered, hmem⟩ := ih
    refine ⟨rs ++ (Redefinition.atEnd? cells c).toList, ?_, ?_, ?_⟩
    · rw [redefinitions_concat, hnotices, List.map_append]
    · refine List.pairwise_append.mpr ⟨hordered, ?_, ?_⟩
      · cases Redefinition.atEnd? cells c <;> simp
      · intro r hr last hlast
        rw [(Redefinition.atEnd?_eq_some_iff.mp (Option.mem_toList.mp hlast)).1]
        exact ((hmem r).mp hr).defined.lt
    · intro r
      rw [List.mem_append, hmem, Option.mem_toList, Redefinition.occurs_concat]

/-- The table of any cells is exact, and its warnings are just the redefinitions in order. -/
theorem exact_with_redefinitions (cells : List Cell) :
    (ofCells cells).Exact cells ∧
      ∃ rs : List Redefinition, redefinitions cells = rs.map (·.notice) ∧
        rs.Pairwise (·.index < ·.index) ∧ ∀ r, r ∈ rs ↔ r.Occurs cells :=
  ⟨exact_ofCells cells, exists_redefinitions cells⟩

/-- A label that is defined three times, once by a cell that refers to it. -/
example :
    let cells : List Cell :=
      [{ value := 0, ref := some "b", defines := some "a" },
       { value := 0, ref := some "a", defines := some "b" },
       { value := 0, ref := some "a", defines := some "a" },
       { value := 0, ref := some "b", defines := some "a" }]
    ofCells cells =
        { pointees := [("a", 3), ("b", 1)], pointers := [("b", [0, 3]), ("a", [1, 2])] } ∧
      redefinitions cells = [.labelRedefined "a" 2 0, .labelRedefined "a" 3 2] := by
  decide

end SymbolTable

end AccumulatorAsm
