/-
  AccumulatorAsm.Proofs.Linking.Staged

  Linking in stages: cells are linked first, and again with more cells behind them. A cell that
  is linked waits for no address, so the second stage passes over it, whereas linking everything
  at once looks its label up among all cells. Both ways fail alike. Where they succeed, they give
  the same cells if no label that the first cells refer to is defined again behind them, and
  different ones if some label is (`run_staged`).
-/

import AccumulatorAsm.Proofs.Linking
import AccumulatorAsm.Proofs.Word.Fields

namespace AccumulatorAsm

namespace Cell

variable {ws vs : List Cell} {c : Cell} {name : String}

/-- Some cell of `vs` defines a label that a cell of `ws` refers to. -/
def Rebinds (vs ws : List Cell) : Prop :=
  ∃ c ∈ ws, ∃ name, c.ref = some name ∧ ∃ d ∈ vs, d.defines = some name

instance (vs ws : List Cell) : Decidable (Rebinds vs ws) :=
  decidable_of_iff (∃ c ∈ ws, ∃ name ∈ c.ref, ∃ d ∈ vs, d.defines = some name)
    (by simp only [Rebinds, Option.mem_def])

/-! ## Definitions among more cells -/

/-- Linking moves no definition. -/
theorem definition?_linked_append (ws vs : List Cell) :
    definition? (ws.map (·.linked ws) ++ vs) = definition? (ws ++ vs) := by
  funext name
  apply definition?_eq_of_map_defines_eq
  simp

/-- What is defined among some cells is defined among more of them. -/
theorem undefined?_append_of_eq_none (h : c.undefined? ws = none) (vs : List Cell) :
    c.undefined? (ws ++ vs) = none := by
  rw [Option.eq_none_iff_forall_ne_some] at h ⊢
  rintro ⟨name, line⟩ hsome
  obtain ⟨hr, hd, hline⟩ := undefined?_eq_some_iff.mp hsome
  rw [definition?_append, Option.or_eq_none_iff] at hd
  exact h (name, line) (undefined?_eq_some_iff.mpr ⟨hr, hd.2, hline⟩)

/-! ## Labels defined again -/

/-- Definitions of other labels do not count. -/
theorem linked_append_of_not_rebinds (h : ¬ Rebinds vs ws) (hc : c ∈ ws) :
    c.linked (ws ++ vs) = c.linked ws := by
  cases hr : c.ref with
  | none => rw [linked_of_ref_eq_none hr, linked_of_ref_eq_none hr]
  | some name =>
    have hvs : definition? vs name = none := by
      rw [definition?_eq_none_iff]
      intro d hd hname
      exact h ⟨c, hc, name, hr, d, hd, hname⟩
    have hd : definition? (ws ++ vs) name = definition? ws name := by
      rw [definition?_append, hvs, Option.map_none, Option.none_or]
    rw [linked, linked, hr, Option.bind_some, Option.bind_some, hd]

theorem resolve_inj {a b : Nat} (ha : (a : Int) < Word.valueCount)
    (hb : (b : Int) < Word.valueCount) (h : c.resolve a = c.resolve b) : a = b := by
  have hfield : Word.withAddress c.value a % Word.valueCount =
      Word.withAddress c.value b % Word.valueCount := congrArg (·.value % Word.valueCount) h
  rw [Word.withAddress_emod (by omega) ha, Word.withAddress_emod (by omega) hb] at hfield
  exact Int.ofNat.inj hfield

/-- A label that is defined again has an address behind the first cells. -/
theorem linked_append_ne_of_rebound (hcount : ((ws ++ vs).length : Int) ≤ Word.valueCount)
    (h : c.undefined? ws = none) (hr : c.ref = some name) {d : Cell} (hd : d ∈ vs)
    (hname : d.defines = some name) : c.linked (ws ++ vs) ≠ c.linked ws := by
  rw [List.length_append] at hcount
  have hlinks : c.linkFailure? ws none = none := (linkFailure?_eq_none_iff (by omega)).mpr h
  obtain ⟨address, haddress, -⟩ := exists_definition_of_linkFailure?_eq_none hlinks hr
  obtain ⟨index, hindex⟩ : ∃ index, definition? vs name = some index := by
    rw [← Option.ne_none_iff_exists', Ne, definition?_eq_none_iff]
    exact fun hnone => hnone d hd hname
  have hboth : definition? (ws ++ vs) name = some (index + ws.length) := by
    rw [definition?_append, hindex, Option.map_some, Option.some_or]
  rw [linked_of_definition hr haddress, linked_of_definition hr hboth]
  intro heq
  have hlt := definition?_lt haddress
  have hlt' := definition?_lt hindex
  have hsame : index + ws.length = address := resolve_inj (by omega) (by omega) heq
  omega

end Cell

namespace Linking

open Cell (Rebinds)

variable {ws vs linked : List Cell} {early : Option String}

/-! ## Two ways to link -/

theorem eq_map_linked_of_run (hcount : (ws.length : Int) ≤ Word.valueCount)
    (hlinked : (run ws early).result = .ok linked) :
    (∀ c ∈ ws, c.undefined? ws = none) ∧ linked = ws.map (·.linked ws) := by
  rw [run_result_of_fits hcount] at hlinked
  cases hfind : ws.findSome? (·.undefined? ws) with
  | some u =>
    rw [hfind] at hlinked
    cases hlinked
  | none =>
    rw [hfind] at hlinked
    exact ⟨List.findSome?_eq_none_iff.mp hfind, (Except.ok.inj hlinked).symm⟩

/-- Linking all cells at once, when the first of them can be linked alone. -/
theorem run_append_result (hcount : ((ws ++ vs).length : Int) ≤ Word.valueCount)
    (hdefined : ∀ c ∈ ws, c.undefined? ws = none) (file : Option String) :
    (run (ws ++ vs) file).result =
      ending file (ws.map (·.linked (ws ++ vs)) ++ vs.map (·.linked (ws ++ vs)))
        (vs.findSome? (·.undefined? (ws ++ vs))) := by
  have hws : ws.findSome? (·.undefined? (ws ++ vs)) = none := by
    rw [List.findSome?_eq_none_iff]
    intro c hc
    exact Cell.undefined?_append_of_eq_none (hdefined c hc) vs
  rw [run_result_of_fits hcount, List.findSome?_append, hws, Option.none_or, List.map_append]

/-- Linking cells that are linked already, with more cells behind them. -/
theorem run_linked_append_result (hcount : ((ws ++ vs).length : Int) ≤ Word.valueCount)
    (hdefined : ∀ c ∈ ws, c.undefined? ws = none) (file : Option String) :
    (run (ws.map (·.linked ws) ++ vs) file).result =
      ending file (ws.map (·.linked ws) ++ vs.map (·.linked (ws ++ vs)))
        (vs.findSome? (·.undefined? (ws ++ vs))) := by
  have hlength : ((ws.map (·.linked ws) ++ vs).length : Int) ≤ Word.valueCount := by
    rwa [List.length_append, List.length_map, ← List.length_append]
  have hws : (ws.length : Int) ≤ Word.valueCount := by
    rw [List.length_append] at hcount
    omega
  have hresolved : ∀ d ∈ ws.map (·.linked ws), d.ref = none := by
    intro d hd
    obtain ⟨c, hc, rfl⟩ := List.mem_map.mp hd
    have hlinks : c.linkFailure? ws file = none :=
      (Cell.linkFailure?_eq_none_iff hws).mpr (hdefined c hc)
    exact Cell.linked_ref hlinks
  -- cells that are linked neither fail nor change
  have hfind : (ws.map (·.linked ws)).findSome? (·.undefined? (ws ++ vs)) = none := by
    rw [List.findSome?_eq_none_iff]
    intro d hd
    rw [Cell.undefined?, hresolved d hd, Option.bind_none]
  have hsame : (ws.map (·.linked ws)).map (·.linked (ws ++ vs)) = ws.map (·.linked ws) := by
    conv_rhs => rw [← List.map_id (ws.map _)]
    apply List.map_congr_left
    intro d hd
    exact Cell.linked_of_ref_eq_none (hresolved d hd)
  have hundefined : ∀ c : Cell,
      c.undefined? (ws.map (·.linked ws) ++ vs) = c.undefined? (ws ++ vs) := by
    intro c
    rw [Cell.undefined?, Cell.undefined?, Cell.definition?_linked_append]
  have hlinked : ∀ c : Cell,
      c.linked (ws.map (·.linked ws) ++ vs) = c.linked (ws ++ vs) := by
    intro c
    rw [Cell.linked, Cell.linked, Cell.definition?_linked_append]
  rw [run_result_of_fits hlength]
  simp only [hundefined, hlinked]
  rw [List.findSome?_append, hfind, Option.none_or, List.map_append, hsame]

/-- What is linked stays as it is. -/
theorem run_linked (hcount : (ws.length : Int) ≤ Word.valueCount)
    (hdefined : ∀ c ∈ ws, c.undefined? ws = none) (file : Option String) :
    (run (ws.map (·.linked ws)) file).result = .ok (ws.map (·.linked ws)) := by
  have hcount' : ((ws ++ []).length : Int) ≤ Word.valueCount := by rwa [List.append_nil]
  have h := run_linked_append_result hcount' hdefined file
  rwa [List.append_nil, List.map_nil, List.append_nil, List.findSome?_nil, ending] at h

/-- Linking in two stages and at once. The two agree, in their cells or in their failure, if no
    label of the first cells is defined again, and give different cells otherwise. With nothing
    behind the first cells the second stage changes nothing. -/
theorem run_staged (hcount : ((ws ++ vs).length : Int) ≤ Word.valueCount)
    (hlinked : (run ws early).result = .ok linked) (file : Option String) :
    (¬ Rebinds vs ws →
        (∃ cells, (run (linked ++ vs) file).result = .ok cells ∧
          (run (ws ++ vs) file).result = .ok cells) ∨
        ∃ name line,
          (run (linked ++ vs) file).result =
            .error (.failure ((Cause.undefinedLabel name).atLine line file)) ∧
          (run (ws ++ vs) file).result =
            .error (.failure ((Cause.undefinedLabel name).atLine line file))) ∧
      (Rebinds vs ws → ∀ staged once, (run (linked ++ vs) file).result = .ok staged →
        (run (ws ++ vs) file).result = .ok once → staged ≠ once) ∧
      (run linked file).result = .ok linked := by
  have hws : (ws.length : Int) ≤ Word.valueCount := by
    rw [List.length_append] at hcount
    omega
  obtain ⟨hdefined, rfl⟩ := eq_map_linked_of_run hws hlinked
  rw [run_append_result hcount hdefined, run_linked_append_result hcount hdefined]
  refine ⟨?_, ?_, run_linked hws hdefined file⟩
  · intro hnot
    have hsame : ws.map (·.linked (ws ++ vs)) = ws.map (·.linked ws) :=
      List.map_congr_left fun c hc => Cell.linked_append_of_not_rebinds hnot hc
    rw [hsame]
    cases vs.findSome? (·.undefined? (ws ++ vs)) with
    | none => exact .inl ⟨_, rfl, rfl⟩
    | some u => exact .inr ⟨u.1, u.2, rfl, rfl⟩
  · rintro ⟨c, hc, name, hr, d, hd, hname⟩ staged once hstaged honce heq
    cases hfind : vs.findSome? (·.undefined? (ws ++ vs)) with
    | some u =>
      rw [hfind] at hstaged
      cases hstaged
    | none =>
      rw [hfind] at hstaged honce
      rw [← Except.ok.inj hstaged, ← Except.ok.inj honce, List.append_left_inj,
        List.map_inj_left] at heq
      exact Cell.linked_append_ne_of_rebound hcount (hdefined c hc) hr hd hname (heq c hc).symm

/-- Behind two cells that are linked: a label used by both parts, one that only the second part
    defines, and one that is defined again. -/
theorem run_staged_rebound :
    let ws : List Cell :=
      [{ value := 0x11000000, ref := some "b", defines := some "a" },
       { value := 7, defines := some "b" }]
    let linked : List Cell :=
      [{ value := 0x11000001, defines := some "a" },
       { value := 7, defines := some "b" }]
    let vs : List Cell :=
      [{ value := 0x7E000000, ref := some "b", line := some 3 },
       { value := 0, ref := some "c", defines := some "a" },
       { value := -1, defines := some "c" }]
    let again : List Cell := [{ value := 8, defines := some "b" }]
    (run ws none).result = .ok linked ∧ ¬ Rebinds vs ws ∧
      ((∃ cells, (run (linked ++ vs) none).result = .ok cells ∧
          (run (ws ++ vs) none).result = .ok cells) ∨
        ∃ name line,
          (run (linked ++ vs) none).result =
            .error (.failure ((Cause.undefinedLabel name).atLine line none)) ∧
          (run (ws ++ vs) none).result =
            .error (.failure ((Cause.undefinedLabel name).atLine line none))) ∧
      Rebinds again ws ∧
      (∀ staged once, (run (linked ++ again) none).result = .ok staged →
        (run (ws ++ again) none).result = .ok once → staged ≠ once) ∧
      (run linked none).result = .ok linked := by
  intro ws linked vs again
  have hlinked : (run ws none).result = .ok linked := by decide
  have hnot : ¬ Rebinds vs ws := by decide
  have hagain : Rebinds again ws := by decide
  have hcount : ((ws ++ vs).length : Int) ≤ Word.valueCount := by decide
  have hcount' : ((ws ++ again).length : Int) ≤ Word.valueCount := by decide
  obtain ⟨hagree, -, hidle⟩ := run_staged hcount hlinked none
  obtain ⟨-, hdiffer, -⟩ := run_staged hcount' hlinked none
  exact ⟨hlinked, hnot, hagree hnot, hagain, hdiffer hagain, hidle⟩

end Linking

end AccumulatorAsm
