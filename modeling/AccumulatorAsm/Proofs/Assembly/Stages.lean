/-
  AccumulatorAsm.Proofs.Assembly.Stages

  An assembly seen from its stages: reading, emission, linking, and fixing the length. It ends in
  the fault of the first stage that fails (`assemble_of_read_error`,
  `assemble_of_emission_error`, `assemble_of_linkFailure`), and if the cells can be linked the
  length decides (`assemble_of_linked`). One of the four always applies (`stages_cases`).
-/

import AccumulatorAsm.Assembly
import AccumulatorAsm.Proofs.Linking

namespace AccumulatorAsm

/-! ## The image of resolved cells -/

/-- Of cells that wait for no address only the number decides. -/
theorem Image.result_ofCells (room : Room) {cells : List Cell} {length : Int} (hlength : 0 < length)
    (href : ∀ c ∈ cells, c.ref = none) (file : Option String) :
    (Image.ofCells room cells length file).result =
      if length < cells.length then
        .error (.failure (.overCapacity cells.length length none none file))
      else
        match Image.zeros room (length.toNat - cells.length) with
        | .error v => .error (.invalid v)
        | .ok words => .ok ⟨cells.map (·.value) ++ words⟩ := by
  have hfirst : Image.firstReference? cells = none :=
    List.findSome?_eq_none_iff.mpr href
  rw [Image.ofCells, if_neg (Int.not_le.mpr hlength), hfirst]
  by_cases hlong : length < cells.length
  · simp only [if_pos hlong, Logged.result_fail]
  · simp only [if_neg hlong, Logged.result_noting]
    cases Image.zeros room (length.toNat - cells.length) <;> rfl

/-- A failure of linking names the file already. -/
theorem Cell.withFile_of_linkFailure? {cells : List Cell} {file : Option String} {c : Cell}
    {failure : Failure} (h : c.linkFailure? cells file = some failure) :
    failure.withFile file = failure := by
  unfold Cell.linkFailure? at h
  split at h
  · cases h
  · split at h
    · obtain rfl := Option.some.inj h
      exact Cause.withFile_atLine_self ..
    · split at h
      · cases h
      · obtain rfl := Option.some.inj h
        exact Failure.withFile_new_self ..

namespace Assembly

variable {room : Room} {text : String} {length : Int} {file : Option String}
  {is : List Instruction} {cells : List Cell}

/-! ## The stage that decides -/

theorem result_assemble (hlength : 0 < length) :
    (assemble room text length file).result =
      ((stages room text length file).withFile file).result := by
  rw [assemble, if_neg (Int.not_le.mpr hlength)]

theorem assemble_of_read_error (hlength : 0 < length) {fault : Fault}
    (hread : (Source.read text file).result = .error fault) :
    (assemble room text length file).result = .error (fault.withFile file) := by
  rw [result_assemble hlength, Logged.result_withFile_eq_error]
  exact ⟨fault, Logged.result_bind_eq_error.mpr (.inl hread), rfl⟩

theorem assemble_of_emission_error (hlength : 0 < length) {fault : Fault}
    (hread : (Source.read text file).result = .ok is)
    (hcells : (Emission.run is).result = .error fault) :
    (assemble room text length file).result = .error (fault.withFile file) := by
  rw [result_assemble hlength, Logged.result_withFile_eq_error]
  refine ⟨fault, Logged.result_bind_eq_error.mpr (.inr ⟨is, hread, ?_⟩), rfl⟩
  exact Logged.result_bind_eq_error.mpr (.inl hcells)

theorem assemble_of_linkFailure (hlength : 0 < length) {failure : Failure}
    (hread : (Source.read text file).result = .ok is)
    (hcells : (Emission.run is).result = .ok cells)
    (hfailure : cells.findSome? (·.linkFailure? cells file) = some failure) :
    (assemble room text length file).result = .error (.failure failure) := by
  have hlink : (Linking.run cells file).result = .error (.failure failure) := by
    rw [Linking.run_result, hfailure]
  have hfile : failure.withFile file = failure := by
    obtain ⟨c, -, hc⟩ := List.exists_of_findSome?_eq_some hfailure
    exact Cell.withFile_of_linkFailure? hc
  rw [result_assemble hlength, Logged.result_withFile_eq_error]
  refine ⟨.failure failure, ?_, by rw [Fault.withFile_failure, hfile]⟩
  refine Logged.result_bind_eq_error.mpr (.inr ⟨is, hread, ?_⟩)
  refine Logged.result_bind_eq_error.mpr (.inr ⟨cells, hcells, ?_⟩)
  exact Logged.result_bind_eq_error.mpr (.inl hlink)

theorem assemble_of_linked (hlength : 0 < length)
    (hread : (Source.read text file).result = .ok is)
    (hcells : (Emission.run is).result = .ok cells)
    (hlinked : ∀ c ∈ cells, c.linkFailure? cells file = none) :
    (assemble room text length file).result =
      if length < cells.length then
        .error (.failure (.overCapacity cells.length length none none file))
      else
        match Image.zeros room (length.toNat - cells.length) with
        | .error v => .error (.invalid v)
        | .ok words => .ok ⟨cells.map (fun c => (c.linked cells).value) ++ words⟩ := by
  have hlink : (Linking.run cells file).result = .ok (cells.map (·.linked cells)) := by
    rw [Linking.run_result, List.findSome?_eq_none_iff.mpr hlinked]
  have hrefs : ∀ c ∈ cells.map (·.linked cells), c.ref = none := by
    intro c hc
    obtain ⟨d, hd, rfl⟩ := List.mem_map.mp hc
    exact Cell.linked_ref (hlinked d hd)
  have himage := Image.result_ofCells room hlength hrefs file
  rw [List.length_map, List.map_map] at himage
  have hstages : (stages room text length file).result =
      (Image.ofCells room (cells.map (·.linked cells)) length file).result := by
    rw [stages, Logged.bind_of_ok hread, Logged.bind_of_ok hcells, Logged.bind_of_ok hlink]
  rw [himage] at hstages
  rw [result_assemble hlength]
  -- no fault that is left could take in another file
  split
  · next hlong =>
    rw [if_pos hlong] at hstages
    rw [Logged.result_withFile_of_error hstages, Fault.withFile_failure, Failure.overCapacity,
      Failure.withFile_new_self]
  · next hlong =>
    rw [if_neg hlong] at hstages
    cases hzeros : Image.zeros room (length.toNat - cells.length) with
    | error v =>
      rw [hzeros] at hstages
      exact Logged.result_withFile_of_error hstages file
    | ok words =>
      rw [hzeros] at hstages
      exact Logged.result_withFile_of_ok hstages file

/-- Some stage fails, or the cells can be linked. -/
theorem stages_cases (text : String) (file : Option String) :
    (∃ fault, (Source.read text file).result = .error fault) ∨
    ∃ is, (Source.read text file).result = .ok is ∧
      ((∃ fault, (Emission.run is).result = .error fault) ∨
      ∃ cells, (Emission.run is).result = .ok cells ∧
        ((∃ failure, cells.findSome? (·.linkFailure? cells file) = some failure) ∨
        ∀ c ∈ cells, c.linkFailure? cells file = none)) := by
  cases hread : (Source.read text file).result with
  | error fault => exact .inl ⟨fault, rfl⟩
  | ok is =>
    refine .inr ⟨is, rfl, ?_⟩
    cases hcells : (Emission.run is).result with
    | error fault => exact .inl ⟨fault, rfl⟩
    | ok cells =>
      refine .inr ⟨cells, rfl, ?_⟩
      cases hfailure : cells.findSome? (·.linkFailure? cells file) with
      | some failure => exact .inl ⟨failure, rfl⟩
      | none => exact .inr (List.findSome?_eq_none_iff.mp hfailure)

/-- An assembly that succeeds went through all stages. -/
theorem exists_linked_of_assemble_ok {image : Image}
    (h : (assemble room text length file).result = .ok image) :
    0 < length ∧ ∃ is cells words, (Source.read text file).result = .ok is ∧
      (Emission.run is).result = .ok cells ∧
      (∀ c ∈ cells, c.linkFailure? cells file = none) ∧ (cells.length : Int) ≤ length ∧
      Image.zeros room (length.toNat - cells.length) = .ok words ∧
      image = ⟨cells.map (fun c => (c.linked cells).value) ++ words⟩ := by
  have hlength : 0 < length := by
    by_contra hneg
    rw [assemble, if_pos (Int.not_lt.mp hneg)] at h
    cases h
  refine ⟨hlength, ?_⟩
  rcases stages_cases text file with ⟨fault, hread⟩ | ⟨is, hread, hrest⟩
  · rw [assemble_of_read_error hlength hread] at h
    cases h
  rcases hrest with ⟨fault, hcells⟩ | ⟨cells, hcells, hrest⟩
  · rw [assemble_of_emission_error hlength hread hcells] at h
    cases h
  rcases hrest with ⟨failure, hfailure⟩ | hlinked
  · rw [assemble_of_linkFailure hlength hread hcells hfailure] at h
    cases h
  rw [assemble_of_linked hlength hread hcells hlinked] at h
  split at h
  · cases h
  · next hfits =>
    split at h
    · cases h
    · next words hwords =>
      exact ⟨is, cells, words, hread, hcells, hlinked, Int.not_lt.mp hfits, hwords,
        (Except.ok.inj h).symm⟩

end Assembly

end AccumulatorAsm
