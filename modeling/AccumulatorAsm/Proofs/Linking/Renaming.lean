/-
  AccumulatorAsm.Proofs.Linking.Renaming

  Names of labels mean nothing but themselves. If all names of a program are replaced by others,
  different ones by different ones, its symbol table and its linked cells are those of the
  program with the names replaced, and linking fails for the replaced name where it failed for
  the name (`run_renamed`).

  Every lookup asks for a replaced name among replaced names, and injectivity says that it finds
  there what the name found before. So each step of the table goes along with the renaming, and
  the addresses that linking takes from the table are the same.
-/

import Mathlib.Logic.Function.Basic
import AccumulatorAsm.Proofs.Linking

namespace AccumulatorAsm

/-! ## Renamed programs -/

namespace Cell

/-- A cell under other names. -/
def rename (r : String → String) (c : Cell) : Cell :=
  { c with ref := c.ref.map r, defines := c.defines.map r }

@[simp] theorem rename_ref (r : String → String) (c : Cell) : (c.rename r).ref = c.ref.map r := rfl

@[simp] theorem rename_defines (r : String → String) (c : Cell) :
    (c.rename r).defines = c.defines.map r := rfl

@[simp] theorem rename_line (r : String → String) (c : Cell) : (c.rename r).line = c.line := rfl

end Cell

/-- Entries under other names. -/
def Entries.rename {α : Type} (r : String → String) (es : List (String × α)) :
    List (String × α) :=
  es.map fun e => (r e.1, e.2)

/-- A table under other names, with all indices as they are. -/
def SymbolTable.rename (r : String → String) (t : SymbolTable) : SymbolTable where
  pointees := Entries.rename r t.pointees
  pointers := Entries.rename r t.pointers

section Injective

variable {r : String → String} (hr : Function.Injective r)

include hr

/-! ## Entries -/

namespace Entries

variable {α : Type}

theorem lookup_rename (es : List (String × α)) (name : String) :
    (rename r es).lookup (r name) = es.lookup name := by
  induction es with
  | nil => rfl
  | cons e es ih =>
    have hsame : (r name == r e.1) = (name == e.1) := by
      rw [Bool.eq_iff_iff, beq_iff_eq, beq_iff_eq, hr.eq_iff]
    show List.lookup (r name) ((r e.1, e.2) :: rename r es) = _
    rw [List.lookup_cons, List.lookup_cons, hsame, ih]

theorem put_rename (name : String) (a : α) (es : List (String × α)) :
    put (r name) a (rename r es) = rename r (put name a es) := by
  induction es with
  | nil => rfl
  | cons e es ih =>
    show put (r name) a ((r e.1, e.2) :: rename r es) = rename r (put name a (e :: es))
    by_cases h : e.1 = name
    · rw [put, put, if_pos h, if_pos (congrArg r h)]
      rfl
    · rw [put, put, if_neg h, if_neg (hr.ne h), ih]
      rfl

end Entries

/-! ## The table -/

namespace SymbolTable

theorem address?_rename (t : SymbolTable) (name : String) :
    (t.rename r).address? (r name) = t.address? name :=
  Entries.lookup_rename hr t.pointees name

theorem sites_rename (t : SymbolTable) (name : String) :
    (t.rename r).sites (r name) = t.sites name := by
  rw [sites, sites, ← Entries.lookup_rename hr t.pointers name, rename]

theorem define_rename (t : SymbolTable) (name : String) (index : Nat) :
    (t.rename r).define (r name) index = (t.define name index).rename r := by
  rw [define, define, rename, rename, Entries.put_rename hr]

theorem use_rename (t : SymbolTable) (name : String) (index : Nat) :
    (t.rename r).use (r name) index = (t.use name index).rename r := by
  rw [use, use, sites_rename hr, rename, rename, Entries.put_rename hr]

/-- A renamed cell changes a renamed table as the cell changes the table. -/
theorem add_rename (t : SymbolTable) (index : Nat) (c : Cell) :
    (t.rename r).add index (c.rename r) = (t.add index c).rename r := by
  cases hd : c.defines <;> cases hu : c.ref <;>
    simp only [add, Cell.rename_defines, Cell.rename_ref, hd, hu, Option.map_some,
      Option.map_none, define_rename hr, use_rename hr]

theorem ofCells_rename (cells : List Cell) :
    ofCells (cells.map (·.rename r)) = (ofCells cells).rename r := by
  induction cells using List.reverseRecOn with
  | nil => rfl
  | append_singleton cells c ih =>
    rw [List.map_append, List.map_singleton, ofCells_append_singleton, ofCells_append_singleton,
      ih, List.length_map, add_rename hr]

end SymbolTable

/-! ## Linking -/

namespace Cell

theorem definition?_rename (cells : List Cell) (name : String) :
    definition? (cells.map (·.rename r)) (r name) = definition? cells name := by
  rw [← SymbolTable.address?_ofCells, SymbolTable.ofCells_rename hr,
    SymbolTable.address?_rename hr, SymbolTable.address?_ofCells]

theorem linked_rename (cells : List Cell) (c : Cell) :
    (c.rename r).linked (cells.map (·.rename r)) = (c.linked cells).rename r := by
  cases href : c.ref with
  | none => rw [linked_of_ref_eq_none href, linked_of_ref_eq_none (by rw [rename_ref, href]; rfl)]
  | some name =>
    have hrenamed : (c.rename r).ref = some (r name) := by rw [rename_ref, href, Option.map_some]
    cases hd : definition? cells name with
    | none => simp only [linked, href, hrenamed, Option.bind_some, definition?_rename hr, hd]
    | some address =>
      have hd' : definition? (cells.map (·.rename r)) (r name) = some address := by
        rw [definition?_rename hr, hd]
      rw [linked_of_definition href hd, linked_of_definition hrenamed hd']
      rfl

theorem undefined?_rename (cells : List Cell) (c : Cell) :
    (c.rename r).undefined? (cells.map (·.rename r)) =
      (c.undefined? cells).map fun (name, line) => (r name, line) := by
  rw [undefined?, undefined?, rename_ref]
  cases c.ref with
  | none => rfl
  | some name =>
    simp only [Option.map_some, Option.bind_some, definition?_rename hr, rename_line]
    split <;> rfl

end Cell

namespace Linking

theorem run_renamed_result {cells : List Cell} (hcount : (cells.length : Int) ≤ Word.valueCount)
    (file : Option String) :
    (run (cells.map (·.rename r)) file).result =
      ending file ((cells.map (·.linked cells)).map (·.rename r))
        ((cells.findSome? (·.undefined? cells)).map fun (name, line) => (r name, line)) := by
  have hlinked : (cells.map (·.rename r)).map (·.linked (cells.map (·.rename r))) =
      (cells.map (·.linked cells)).map (·.rename r) := by
    rw [List.map_map, List.map_map]
    exact List.map_congr_left fun c _ => Cell.linked_rename hr cells c
  have hfind : (cells.map (·.rename r)).findSome? (·.undefined? (cells.map (·.rename r))) =
      (cells.findSome? (·.undefined? cells)).map fun (name, line) => (r name, line) := by
    rw [List.findSome?_map, List.map_findSome?]
    exact congrArg cells.findSome? (funext fun c => Cell.undefined?_rename hr cells c)
  rw [run_result_of_fits (by rwa [List.length_map]), hlinked, hfind]

/-- A program under other names has the same table and the same linked cells under these names,
    or fails for the other name of the label that it fails for, at the same line. -/
theorem run_renamed {cells : List Cell} (hcount : (cells.length : Int) ≤ Word.valueCount)
    (file : Option String) :
    SymbolTable.ofCells (cells.map (·.rename r)) = (SymbolTable.ofCells cells).rename r ∧
      ((∃ linked, (run cells file).result = .ok linked ∧
          (run (cells.map (·.rename r)) file).result = .ok (linked.map (·.rename r))) ∨
        ∃ name line,
          (run cells file).result =
            .error (.failure ((Cause.undefinedLabel name).atLine line file)) ∧
          (run (cells.map (·.rename r)) file).result =
            .error (.failure ((Cause.undefinedLabel (r name)).atLine line file))) := by
  refine ⟨SymbolTable.ofCells_rename hr cells, ?_⟩
  rw [run_result_of_fits hcount, run_renamed_result hr hcount]
  cases cells.findSome? (·.undefined? cells) with
  | none => exact .inl ⟨_, rfl, rfl⟩
  | some u => exact .inr ⟨u.1, u.2, rfl, rfl⟩

end Linking

end Injective

/-- Two names exchanged in a program that defines one of them twice and refers to both. -/
theorem Linking.run_renamed_exchanged :
    let r : String → String := fun name =>
      if name = "a" then "b" else if name = "b" then "a" else name
    let cells : List Cell :=
      [{ value := 0x11000000, ref := some "b", defines := some "a" },
       { value := 0x12000000, ref := some "a", defines := some "b", line := some 2 },
       { value := -1, ref := some "b", defines := some "a" }]
    Function.Injective r ∧ (cells.length : Int) ≤ Word.valueCount ∧
      SymbolTable.ofCells (cells.map (·.rename r)) = (SymbolTable.ofCells cells).rename r ∧
      ((∃ linked, (run cells none).result = .ok linked ∧
          (run (cells.map (·.rename r)) none).result = .ok (linked.map (·.rename r))) ∨
        ∃ name line,
          (run cells none).result =
            .error (.failure ((Cause.undefinedLabel name).atLine line none)) ∧
          (run (cells.map (·.rename r)) none).result =
            .error (.failure ((Cause.undefinedLabel (r name)).atLine line none))) := by
  intro r cells
  have hr : Function.Injective r := by
    intro name other h
    grind
  have hcount : (cells.length : Int) ≤ Word.valueCount := by decide
  exact ⟨hr, hcount, run_renamed hr hcount none⟩

end AccumulatorAsm
