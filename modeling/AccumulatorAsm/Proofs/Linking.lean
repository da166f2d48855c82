/-
  AccumulatorAsm.Proofs.Linking

  Linking, cell by cell. Labels are resolved one after the other in the order of their first use,
  and the cells change while that goes on. The result says nothing of this order: linking fails
  at the first cell whose reference has no address that fits, and otherwise every cell has the
  address of its own label (`run_result`).

  The proof follows the list of names. Before a name is resolved its cells are still those of the
  start, and the cells of names that are done have their address (`resolveAll_eq`). So a cell is
  never resolved that waits for no address, and the check for it never fails (`resolveAt_uses`).
-/

import AccumulatorAsm.Linking
import AccumulatorAsm.Proofs.SymbolTable

namespace AccumulatorAsm

/-! ## One cell -/

namespace Cell

/-- A cell as linking leaves it among `cells`: with the address of the label it refers to. -/
def linked (cells : List Cell) (c : Cell) : Cell :=
  match c.ref.bind (definition? cells) with
  | some address => c.resolve address
  | none => c

/-- Why a cell among `cells` cannot be linked, if it cannot. -/
def linkFailure? (cells : List Cell) (file : Option String) (c : Cell) : Option Failure :=
  match c.ref with
  | none => none
  | some name =>
    match definition? cells name with
    | none => some ((Cause.undefinedLabel name).atLine c.line file)
    | some address =>
      if Word.fits address Word.valueBits then none
      else some (.overCapacity cells.length Word.valueCount none none file)

theorem linked_of_ref_eq_none {cells : List Cell} {c : Cell} (h : c.ref = none) :
    c.linked cells = c := by
  simp [linked, h]

theorem linked_of_definition {cells : List Cell} {c : Cell} {name : String} {address : Nat}
    (hr : c.ref = some name) (hd : definition? cells name = some address) :
    c.linked cells = c.resolve address := by
  simp [linked, hr, hd]

@[simp] theorem linked_defines (cells : List Cell) (c : Cell) :
    (c.linked cells).defines = c.defines := by
  unfold linked
  split <;> rfl

@[simp] theorem linked_line (cells : List Cell) (c : Cell) :
    (c.linked cells).line = c.line := by
  unfold linked
  split <;> rfl

/-- A cell that can be linked has a definition for its reference. -/
theorem exists_definition_of_linkFailure?_eq_none {cells : List Cell} {file : Option String}
    {c : Cell} {name : String} (h : c.linkFailure? cells file = none) (hr : c.ref = some name) :
    ∃ address, definition? cells name = some address ∧
      Word.fits address Word.valueBits = true := by
  simp only [linkFailure?, hr] at h
  split at h
  · cases h
  · next address hd =>
    split at h
    · next hf => exact ⟨address, hd, hf⟩
    · cases h

theorem linked_ref {cells : List Cell} {file : Option String} {c : Cell}
    (h : c.linkFailure? cells file = none) : (c.linked cells).ref = none := by
  cases hr : c.ref with
  | none => rw [linked_of_ref_eq_none hr, hr]
  | some name =>
    obtain ⟨address, hd, -⟩ := exists_definition_of_linkFailure?_eq_none h hr
    rw [linked_of_definition hr hd, resolve_ref]

/-- The name that a cell among `cells` refers to without a definition, and the line of the cell. -/
def undefined? (cells : List Cell) (c : Cell) : Option (String × Option Int) :=
  c.ref.bind fun name => if definition? cells name = none then some (name, c.line) else none

theorem undefined?_eq_some_iff {cells : List Cell} {c : Cell} {name : String}
    {line : Option Int} :
    c.undefined? cells = some (name, line) ↔
      c.ref = some name ∧ definition? cells name = none ∧ c.line = line := by
  cases hr : c.ref with
  | none => simp [undefined?, hr]
  | some n =>
    by_cases hd : definition? cells n = none
    · simp only [undefined?, hr, Option.bind_some, hd, if_true, Option.some.injEq, Prod.mk.injEq]
      constructor
      · rintro ⟨rfl, rfl⟩
        exact ⟨rfl, hd, rfl⟩
      · rintro ⟨rfl, -, rfl⟩
        exact ⟨rfl, rfl⟩
    · simp only [undefined?, hr, Option.bind_some, hd, if_false, Option.some.injEq]
      refine iff_of_false (by simp) ?_
      rintro ⟨rfl, hnone, -⟩
      exact hd hnone

/-- An address is an index into the cells. -/
theorem fits_of_definition? {cells : List Cell} (h : (cells.length : Int) ≤ Word.valueCount)
    {name : String} {address : Nat} (hd : definition? cells name = some address) :
    Word.fits address Word.valueBits = true := by
  have hlt := definition?_lt hd
  have hcount : ((1 <<< Word.valueBits : Nat) : Int) = Word.valueCount := by decide
  rw [Word.fits_iff, hcount]
  omega

/-- In a program whose addresses all fit, a cell fails only for want of a definition. -/
theorem linkFailure?_eq_map {cells : List Cell} (h : (cells.length : Int) ≤ Word.valueCount)
    (file : Option String) (c : Cell) :
    c.linkFailure? cells file =
      (c.undefined? cells).map fun (name, line) => (Cause.undefinedLabel name).atLine line file := by
  unfold linkFailure? undefined?
  cases c.ref with
  | none => rfl
  | some name =>
    cases hd : definition? cells name with
    | none => simp [hd]
    | some address => simp [hd, fits_of_definition? h hd]

theorem linkFailure?_eq_none_iff {cells : List Cell} (h : (cells.length : Int) ≤ Word.valueCount)
    {file : Option String} {c : Cell} :
    c.linkFailure? cells file = none ↔ c.undefined? cells = none := by
  rw [linkFailure?_eq_map h, Option.map_eq_none_iff]

theorem linkFailure?_eq_some_iff {cells : List Cell} (h : (cells.length : Int) ≤ Word.valueCount)
    {file : Option String} {c : Cell} {failure : Failure} :
    c.linkFailure? cells file = some failure ↔
      ∃ name, c.ref = some name ∧ (∀ d ∈ cells, d.defines ≠ some name) ∧
        failure = (Cause.undefinedLabel name).atLine c.line file := by
  simp only [linkFailure?_eq_map h, Option.map_eq_some_iff, Prod.exists, undefined?_eq_some_iff,
    definition?_eq_none_iff]
  constructor
  · rintro ⟨name, _, ⟨hr, hundefined, rfl⟩, rfl⟩
    exact ⟨name, hr, hundefined, rfl⟩
  · rintro ⟨name, hr, hundefined, rfl⟩
    exact ⟨name, c.line, ⟨hr, hundefined, rfl⟩, rfl⟩

end Cell

namespace Linking

/-! ## Addresses put into cells -/

/-- A cell that still waits passes the check. -/
theorem resolveCell_eq_ok (address : Nat) {cells : List Cell} {index : Nat}
    (hwaits : ∀ c, cells[index]? = some c → c.ref ≠ none) :
    resolveCell address cells index = .ok (cells.modify index (·.resolve address)) := by
  rw [resolveCell, List.modify_eq_set_getElem?]
  cases hc : cells[index]? with
  | none => rfl
  | some c =>
    have hresolve : c.resolve? address = .ok (c.resolve address) := by
      simp [Cell.resolve?, Cell.isResolved, hwaits c hc]
    simp only [hresolve]
    rfl

/-- Different cells that all wait take the address, each at its own index. -/
theorem exists_resolveAt (address : Nat) {sites : List Nat} (h : sites.Nodup) {cells : List Cell}
    (hwaits : ∀ i ∈ sites, ∀ c, cells[i]? = some c → c.ref ≠ none) :
    ∃ resolved, resolveAt address sites cells = .ok resolved ∧ ∀ i : Nat, resolved[i]? =
      if i ∈ sites then (cells[i]?).map (·.resolve address) else cells[i]? := by
  induction sites generalizing cells with
  | nil => exact ⟨cells, rfl, by simp⟩
  | cons s sites ih =>
    obtain ⟨hs, hsites⟩ := List.nodup_cons.mp h
    have hstep := resolveCell_eq_ok address (hwaits s List.mem_cons_self)
    -- no site comes twice, so the cells at the others wait as before
    have hrest : ∀ i ∈ sites, ∀ c, (cells.modify s (·.resolve address))[i]? = some c →
        c.ref ≠ none := by
      intro i hi c hc
      have hne : s ≠ i := fun hsi => hs (hsi ▸ hi)
      rw [List.getElem?_modify_ne _ _ hne] at hc
      exact hwaits i (List.mem_cons_of_mem _ hi) c hc
    obtain ⟨resolved, hresolved, hat⟩ := ih hsites hrest
    refine ⟨resolved, ?_, fun i => ?_⟩
    · rw [resolveAt, List.foldlM_cons, hstep]
      exact hresolved
    · rw [hat, List.getElem?_modify]
      by_cases his : s = i
      · subst his
        simp [hs]
      · simp [his, Ne.symm his]

/-- One name is resolved in the cells that refer to it; `g` is what was done to the others. -/
theorem resolveAt_uses (cells : List Cell) (name : String) (address : Nat) {g : Cell → Cell}
    (hg : ∀ c : Cell, c.ref = some name → g c = c) :
    resolveAt address (Cell.uses cells name) (cells.map g) =
      .ok (cells.map fun c => if c.ref = some name then c.resolve address else g c) := by
  -- the cells that refer to the name are those of the start, so they wait
  have hwaits : ∀ i ∈ Cell.uses cells name, ∀ c, (cells.map g)[i]? = some c → c.ref ≠ none := by
    intro i hi c hc
    obtain ⟨d, hd, href⟩ := Cell.mem_uses.mp hi
    rw [List.getElem?_map, hd, Option.map_some, hg d href] at hc
    obtain rfl := Option.some.inj hc
    rw [href]
    exact Option.some_ne_none name
  obtain ⟨resolved, hresolved, hat⟩ :=
    exists_resolveAt address (Cell.uses_nodup cells name) hwaits
  refine hresolved.trans (congrArg Except.ok (List.ext_getElem? fun i => ?_))
  rw [hat, List.getElem?_map, List.getElem?_map]
  cases hc : cells[i]? with
  | none => simp
  | some c =>
    have hmem : i ∈ Cell.uses cells name ↔ c.ref = some name := by simp [Cell.mem_uses, hc]
    by_cases hr : c.ref = some name
    · simp [hmem, hr, hg c hr]
    · simp [hmem, hr]

/-! ## One name after the other -/

/-- Why a name cannot be resolved, if it cannot. -/
def nameFailure? (cells : List Cell) (file : Option String) (name : String) : Option Failure :=
  match addressFor cells (.ofCells cells) file name (Cell.uses cells name) with
  | .ok _ => none
  | .error failure => some failure

theorem addressFor_eq_ok {cells : List Cell} {file : Option String} {name : String}
    {sites : List Nat} {address : Nat}
    (h : addressFor cells (.ofCells cells) file name sites = .ok address) :
    Cell.definition? cells name = some address := by
  rw [addressFor, SymbolTable.address?_ofCells] at h
  split at h
  · cases h
  · next hd =>
    split at h
    · exact hd.trans (congrArg some (Except.ok.inj h))
    · cases h

/-- Resolving a list of names. `g` is what was done to the cells of the names before. No cell is
    asked twice, so only a name fails. -/
theorem resolveAll_eq (cells : List Cell) (file : Option String) {names : List String}
    (hnames : names.Nodup) {g : Cell → Cell}
    (hg : ∀ n ∈ names, ∀ c : Cell, c.ref = some n → g c = c) :
    resolveAll cells (.ofCells cells) file (names.map fun n => (n, Cell.uses cells n))
        (cells.map g) =
      match names.findSome? (nameFailure? cells file) with
      | some failure => .error (.failure failure)
      | none =>
        .ok (cells.map fun c => if c.ref ∈ names.map some then c.linked cells else g c) := by
  induction names generalizing g with
  | nil => simp [resolveAll]
  | cons name names ih =>
    obtain ⟨hname, hnames⟩ := List.nodup_cons.mp hnames
    simp only [List.map_cons, resolveAll, List.findSome?_cons, nameFailure?]
    cases ha : addressFor cells (.ofCells cells) file name (Cell.uses cells name) with
    | error failure => rfl
    | ok address =>
      have hd := addressFor_eq_ok ha
      -- cells of later names are still untouched
      have hg' : ∀ n ∈ names, ∀ c : Cell, c.ref = some n →
          (if c.ref = some name then c.resolve address else g c) = c := by
        intro n hn c hr
        have hne : ¬ c.ref = some name := by
          rintro h
          exact hname (Option.some.inj (hr.symm.trans h) ▸ hn)
        rw [if_neg hne]
        exact hg n (List.mem_cons_of_mem _ hn) c hr
      simp only [resolveAt_uses cells name address (hg name List.mem_cons_self)]
      rw [ih hnames hg']
      -- the two forms differ in the cells of `name` only
      have hcell : ∀ c : Cell,
          (if c.ref ∈ names.map some then c.linked cells
            else if c.ref = some name then c.resolve address else g c) =
          if c.ref ∈ some name :: names.map some then c.linked cells else g c := by
        intro c
        by_cases hr : c.ref = some name
        · have hlinked := Cell.linked_of_definition hr hd
          simp [hr, hlinked]
        · simp [hr]
      simp only [hcell]

/-! ## The first failure -/

/-- A search that stops at the first hit may leave out repetitions. -/
theorem findSome?_eraseDups {α : Type} [BEq α] [LawfulBEq α] {β : Type} (f : α → Option β)
    (l : List α) :
    l.eraseDups.findSome? f = l.findSome? f := by
  induction l using List.reverseRecOn with
  | nil => rfl
  | append_singleton l a ih =>
    rw [eraseDups_concat, List.findSome?_append]
    by_cases ha : a ∈ l
    · -- a repetition adds nothing: its first occurrence hit already or never hits
      rw [if_pos ha, ih]
      cases hl : l.findSome? f with
      | some b => rfl
      | none =>
        have hfa : f a = none := List.findSome?_eq_none_iff.mp hl a ha
        simp [hfa]
    · rw [if_neg ha, List.findSome?_append, ih]

theorem firstLine_uses {before after : List Cell} {c : Cell} {name : String}
    (hc : c.ref = some name) (hbefore : ∀ d ∈ before, d.ref ≠ some name) :
    firstLine (before ++ c :: after) (Cell.uses (before ++ c :: after) name) = c.line := by
  -- so the first use is the cell itself
  have hnil : Cell.uses before name = [] := by
    apply List.eq_nil_iff_forall_not_mem.mpr
    intro i hi
    obtain ⟨d, hd, hr⟩ := Cell.mem_uses.mp hi
    exact hbefore d (List.mem_of_getElem? hd) hr
  have huses : (Cell.uses (before ++ c :: after) name).head? = some before.length := by
    rw [← List.singleton_append, ← List.append_assoc, Cell.uses_append, Cell.uses_append, hnil,
      Cell.uses_singleton, if_pos hc]
    simp
  simp [firstLine, huses]

theorem nameFailure?_eq (cells : List Cell) (file : Option String) (name : String) :
    nameFailure? cells file name =
      match Cell.definition? cells name with
      | none => some
          ((Cause.undefinedLabel name).atLine (firstLine cells (Cell.uses cells name)) file)
      | some address =>
        if Word.fits address Word.valueBits then none
        else some (.overCapacity cells.length Word.valueCount none none file) := by
  rw [nameFailure?, addressFor, SymbolTable.address?_ofCells]
  cases Cell.definition? cells name with
  | none => rfl
  | some address => by_cases hf : Word.fits address Word.valueBits <;> simp [hf]

/-- A cell and the name it refers to fail together. -/
theorem nameFailure?_eq_none_iff {cells : List Cell} {file : Option String} {c : Cell} :
    c.ref.bind (nameFailure? cells file) = none ↔ c.linkFailure? cells file = none := by
  cases hr : c.ref with
  | none => simp [Cell.linkFailure?, hr]
  | some name =>
    rw [Option.bind_some, nameFailure?_eq]
    cases hd : Cell.definition? cells name <;> simp [Cell.linkFailure?, hr, hd]

/-- At the first cell that cannot be linked the name fails with the line of that cell, since no
    cell before it refers to the name. -/
theorem nameFailure?_of_first {before after : List Cell} {c : Cell} {file : Option String}
    {failure : Failure}
    (hbefore : ∀ d ∈ before, d.linkFailure? (before ++ c :: after) file = none)
    (hc : c.linkFailure? (before ++ c :: after) file = some failure) :
    c.ref.bind (nameFailure? (before ++ c :: after) file) = some failure := by
  cases hr : c.ref with
  | none => simp [Cell.linkFailure?, hr] at hc
  | some name =>
    -- a cell before it with this reference would fail too
    have hfirst : ∀ d ∈ before, d.ref ≠ some name := by
      intro d hd hdr
      have hnone := nameFailure?_eq_none_iff.mpr (hbefore d hd)
      have hsome : c.ref.bind (nameFailure? (before ++ c :: after) file) = none := by
        rw [hr, ← hdr, hnone]
      rw [nameFailure?_eq_none_iff.mp hsome] at hc
      cases hc
    simp only [Cell.linkFailure?, hr] at hc
    rw [Option.bind_some, nameFailure?_eq, firstLine_uses hr hfirst]
    exact hc

/-- The first name that cannot be resolved is the one at the first cell that cannot be linked. -/
theorem findSome?_nameFailure? (cells : List Cell) (file : Option String) :
    (Cell.references cells).findSome? (nameFailure? cells file) =
      cells.findSome? (·.linkFailure? cells file) := by
  rw [Cell.references, ← List.head?_filterMap, List.filterMap_filterMap, List.head?_filterMap]
  cases h : cells.findSome? (·.linkFailure? cells file) with
  | none =>
    rw [List.findSome?_eq_none_iff] at h ⊢
    exact fun c hc => nameFailure?_eq_none_iff.mpr (h c hc)
  | some failure =>
    obtain ⟨before, c, after, rfl, hc, hbefore⟩ := List.findSome?_eq_some_iff.mp h
    refine List.findSome?_eq_some_iff.mpr
      ⟨before, c, after, rfl, nameFailure?_of_first hbefore hc, ?_⟩
    exact fun d hd => nameFailure?_eq_none_iff.mpr (hbefore d hd)

/-- Linking fails at the first cell that cannot be linked, and links every cell if there is
    none. -/
theorem run_result (cells : List Cell) (file : Option String) :
    (run cells file).result =
      match cells.findSome? (·.linkFailure? cells file) with
      | some failure => .error (.failure failure)
      | none => .ok (cells.map (·.linked cells)) := by
  have hmem : ∀ c ∈ cells, c.ref ∉ (Cell.references cells).eraseDups.map some →
      c.linked cells = c := by
    intro c hc hnot
    cases hr : c.ref with
    | none => exact Cell.linked_of_ref_eq_none hr
    | some name =>
      have hname : name ∈ Cell.references cells := List.mem_filterMap.mpr ⟨c, hc, hr⟩
      exact absurd (List.mem_map.mpr ⟨name, List.mem_eraseDups.mpr hname, hr.symm⟩) hnot
  -- the names are those of the table, each once
  have hnodup : (Cell.references cells).eraseDups.Nodup := by
    rw [← SymbolTable.names_ofCells]
    exact SymbolTable.nodup_names_ofCells cells
  have hall := resolveAll_eq cells file hnodup (g := id) fun _ _ _ _ => rfl
  rw [List.map_id, findSome?_eraseDups, findSome?_nameFailure?] at hall
  rw [run, SymbolTable.pointers_ofCells, Logged.result_noting, hall]
  cases cells.findSome? (·.linkFailure? cells file) with
  | some failure => rfl
  | none =>
    have hcells : (cells.map fun c =>
        if c.ref ∈ (Cell.references cells).eraseDups.map some then c.linked cells else id c) =
        cells.map (·.linked cells) := by
      apply List.map_congr_left
      intro c hc
      by_cases hin : c.ref ∈ (Cell.references cells).eraseDups.map some
      · rw [if_pos hin]
      · rw [if_neg hin, hmem c hc hin, id]
    simp only [hcells, Logged.result_noting, Logged.result_pure]

/-- The end of a linking that meets an undefined reference, or else leaves the given cells. -/
def ending (file : Option String) (cells : List Cell) :
    Option (String × Option Int) → Except Fault (List Cell)
  | some (name, line) => .error (.failure ((Cause.undefinedLabel name).atLine line file))
  | none => .ok cells

/-- In a program whose addresses all fit, only the first undefined reference counts. -/
theorem run_result_of_fits {cells : List Cell} (h : (cells.length : Int) ≤ Word.valueCount)
    (file : Option String) :
    (run cells file).result =
      ending file (cells.map (·.linked cells)) (cells.findSome? (·.undefined? cells)) := by
  have hfind : cells.findSome? (·.linkFailure? cells file) =
      (cells.findSome? (·.undefined? cells)).map fun (name, line) =>
        (Cause.undefinedLabel name).atLine line file := by
    rw [List.map_findSome?]
    exact congrArg cells.findSome? (funext fun c => Cell.linkFailure?_eq_map h file c)
  rw [run_result, hfind]
  cases cells.findSome? (·.undefined? cells) <;> rfl

end Linking

end AccumulatorAsm
