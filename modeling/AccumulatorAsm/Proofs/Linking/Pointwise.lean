/-
  AccumulatorAsm.Proofs.Linking.Pointwise

  Linking said of single cells and indices, without a table: which cells make it fail, which of
  them is reported, and what becomes of each cell otherwise (`run_pointwise`). Values may be any
  integers; an address replaces their lowest 24 bits, and no other bit changes.
-/

import AccumulatorAsm.Proofs.Linking
import AccumulatorAsm.Proofs.Word.Fields

namespace AccumulatorAsm

namespace Cell

/-- A cell that refers to a name which no cell defines. -/
def Dangling (cells : List Cell) (c : Cell) (name : String) : Prop :=
  c.ref = some name ∧ ∀ d ∈ cells, d.defines ≠ some name

/-- What a cell `c` among `cells` is after linking. The address is the greatest index of a cell
    that defines the name. -/
structure LinkedTo (cells : List Cell) (c d : Cell) : Prop where
  defines : d.defines = c.defines
  line : d.line = c.line
  resolved : c.ref = none → d = c
  patched : ∀ name, c.ref = some name → d.ref = none ∧
    d.value / Word.valueCount = c.value / Word.valueCount ∧
    ∃ index : Nat, d.value % Word.valueCount = index ∧
      IsGreatest {i | ∃ e, cells[i]? = some e ∧ e.defines = some name} index

variable {cells : List Cell} {file : Option String}

theorem linkFailure?_eq_some_iff_dangling (hcount : (cells.length : Int) ≤ Word.valueCount)
    {c : Cell} {failure : Failure} :
    c.linkFailure? cells file = some failure ↔
      ∃ name, c.Dangling cells name ∧
        failure = (Cause.undefinedLabel name).atLine c.line file := by
  simp only [linkFailure?_eq_some_iff hcount, Dangling, and_assoc]

theorem linkFailure?_eq_none_iff_dangling (hcount : (cells.length : Int) ≤ Word.valueCount)
    {c : Cell} : c.linkFailure? cells file = none ↔ ∀ name, ¬ c.Dangling cells name := by
  rw [Option.eq_none_iff_forall_ne_some]
  simp only [ne_eq, linkFailure?_eq_some_iff_dangling hcount]
  constructor
  · exact fun h name hname => h _ ⟨name, hname, rfl⟩
  · rintro h _ ⟨name, hname, -⟩
    exact h name hname

theorem linkedTo_linked (hcount : (cells.length : Int) ≤ Word.valueCount) {c : Cell}
    (h : c.linkFailure? cells file = none) : c.LinkedTo cells (c.linked cells) where
  defines := linked_defines cells c
  line := linked_line cells c
  resolved := linked_of_ref_eq_none
  patched := by
    intro name hr
    obtain ⟨index, hd, -⟩ := exists_definition_of_linkFailure?_eq_none h hr
    -- an address is an index into the cells
    have hlt : (index : Int) < Word.valueCount := by
      have hindex := definition?_lt hd
      omega
    rw [linked_of_definition hr hd]
    exact ⟨rfl, Word.withAddress_ediv .., index, Word.withAddress_emod (by omega) hlt,
      isGreatest_of_definition? hd⟩

end Cell

namespace Linking

open Cell

variable {cells : List Cell} {file : Option String}

/-- A fault of linking is that of the first dangling cell. -/
theorem first_dangling_of_run (hcount : (cells.length : Int) ≤ Word.valueCount) {fault : Fault}
    (h : (run cells file).result = .error fault) :
    ∃ (i : Nat) (c : Cell) (name : String), cells[i]? = some c ∧ c.Dangling cells name ∧
      (∀ j < i, ∀ d : Cell, cells[j]? = some d → ∀ other, ¬ d.Dangling cells other) ∧
      fault = .failure ((Cause.undefinedLabel name).atLine c.line file) := by
  rw [run_result] at h
  split at h
  · next failure hfind =>
    obtain rfl := Except.error.inj h
    obtain ⟨before, c, after, hcells, hc, hbefore⟩ := List.findSome?_eq_some_iff.mp hfind
    obtain ⟨name, hname, rfl⟩ := (linkFailure?_eq_some_iff_dangling hcount).mp hc
    refine ⟨before.length, c, name, by simp [hcells], hname, ?_, rfl⟩
    intro j hj d hd
    rw [hcells, List.getElem?_append_left hj] at hd
    exact (linkFailure?_eq_none_iff_dangling hcount).mp (hbefore d (List.mem_of_getElem? hd))
  · cases h

/-- Cells that can be linked are not dangling, and each is linked in its place. -/
theorem linkedTo_of_run (hcount : (cells.length : Int) ≤ Word.valueCount) {linked : List Cell}
    (h : (run cells file).result = .ok linked) :
    (∀ c ∈ cells, ∀ name, ¬ c.Dangling cells name) ∧ linked.length = cells.length ∧
      ∀ (i : Nat) (c : Cell), cells[i]? = some c →
        ∃ d, linked[i]? = some d ∧ c.LinkedTo cells d := by
  rw [run_result] at h
  split at h
  · cases h
  · next hfind =>
    obtain rfl := Except.ok.inj h
    have hnone := List.findSome?_eq_none_iff.mp hfind
    refine ⟨fun c hc => (linkFailure?_eq_none_iff_dangling hcount).mp (hnone c hc),
      List.length_map _, fun i c hc => ⟨c.linked cells, by simp [hc], ?_⟩⟩
    exact linkedTo_linked hcount (hnone c (List.mem_of_getElem? hc))

/-- Linking fails exactly if some cell is dangling, for the first of them and at its line.
    Otherwise the cells stay in their places, and each is linked for itself. -/
theorem run_pointwise (hcount : (cells.length : Int) ≤ Word.valueCount) (file : Option String) :
    ((∃ fault, (run cells file).result = .error fault) ↔
        ∃ c ∈ cells, ∃ name, c.Dangling cells name) ∧
      (∀ fault, (run cells file).result = .error fault →
        ∃ (i : Nat) (c : Cell) (name : String), cells[i]? = some c ∧ c.Dangling cells name ∧
          (∀ j < i, ∀ d : Cell, cells[j]? = some d → ∀ other, ¬ d.Dangling cells other) ∧
          fault = .failure ((Cause.undefinedLabel name).atLine c.line file)) ∧
      ∀ linked, (run cells file).result = .ok linked →
        linked.length = cells.length ∧
          ∀ (i : Nat) (c : Cell), cells[i]? = some c →
            ∃ d, linked[i]? = some d ∧ c.LinkedTo cells d := by
  refine ⟨⟨?_, ?_⟩, fun fault hfault => first_dangling_of_run hcount hfault, ?_⟩
  · rintro ⟨fault, hfault⟩
    obtain ⟨i, c, name, hc, hname, -⟩ := first_dangling_of_run hcount hfault
    exact ⟨c, List.mem_of_getElem? hc, name, hname⟩
  · rintro ⟨c, hc, name, hname⟩
    cases hresult : (run cells file).result with
    | error fault => exact ⟨fault, rfl⟩
    | ok linked => exact absurd hname ((linkedTo_of_run hcount hresult).1 c hc name)
  · exact fun linked hlinked => (linkedTo_of_run hcount hlinked).2

/-- A label defined twice, used before, at and behind its first definition, in words that are
    negative, wider than 32 bits or have something in the value field already. -/
theorem run_pointwise_redefined :
    let cells : List Cell :=
      [{ value := -1, ref := some "a", defines := some "b" },
       { value := 0x991100000F, ref := some "a", defines := some "a", line := some 2 },
       { value := 7, defines := some "a" },
       { value := -0x1000000, ref := some "b", line := some 3 }]
    let linked : List Cell :=
      [{ value := -0xFFFFFE, defines := some "b" },
       { value := 0x9911000002, defines := some "a", line := some 2 },
       { value := 7, defines := some "a" },
       { value := -0x1000000, line := some 3 }]
    (cells.length : Int) ≤ Word.valueCount ∧ (run cells none).result = .ok linked ∧
      linked.length = cells.length ∧
      ∀ (i : Nat) (c : Cell), cells[i]? = some c →
        ∃ d, linked[i]? = some d ∧ c.LinkedTo cells d := by
  intro cells linked
  have hcount : (cells.length : Int) ≤ Word.valueCount := by decide
  have hlinked : (run cells none).result = .ok linked := by decide
  obtain ⟨-, -, hpointwise⟩ := run_pointwise hcount none
  exact ⟨hcount, hlinked, hpointwise linked hlinked⟩

end Linking

end AccumulatorAsm
