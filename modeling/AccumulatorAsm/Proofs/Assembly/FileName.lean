/-
  AccumulatorAsm.Proofs.Assembly.FileName

  The name of the source file changes nothing but the file that a failure names. Reading, linking
  and fixing the length take the name, emission does not, and at the end it is filled in once more;
  all of this is the assembly without a name, with the name filled in (`assemble_eq_withFile`).
  Without a name no failure has a file yet, so under a name every failure has that one, and two
  assemblies of a text under different names differ in nothing else (`agree_of_file`).
-/

import AccumulatorAsm.Assembly
import AccumulatorAsm.Proofs.Agreement
import AccumulatorAsm.Proofs.Emission
import AccumulatorAsm.Proofs.Linking
import AccumulatorAsm.Proofs.Source.Reading

namespace AccumulatorAsm

/-! ## Stages that take the name -/

theorem Source.read_eq_withFile (text : String) (file : Option String) :
    read text file = (read text).withFile file := by
  unfold read
  rw [Logged.withFile_none, Logged.withFile_bind]
  rfl

namespace Linking

variable (cells : List Cell) (file : Option String)

theorem addressFor_eq_mapError (table : SymbolTable) (name : String) (sites : List Nat) :
    addressFor cells table file name sites =
      (addressFor cells table none name sites).mapError (·.withFile file) := by
  unfold addressFor
  cases table.address? name with
  | none =>
    have hcause := (Cause.undefinedLabel name).withFile_atLine (firstLine cells sites) file
    exact congrArg Except.error hcause.symm
  | some address =>
    dsimp only
    by_cases hfits : Word.fits address Word.valueBits
    · rw [if_pos hfits, if_pos hfits]
      rfl
    · rw [if_neg hfits, if_neg hfits]
      have hfailure := Failure.withFile_overCapacity cells.length Word.valueCount file
      exact congrArg Except.error hfailure.symm

/-- The name decides neither which label fails nor what becomes of the cells. -/
theorem resolveAll_eq_mapError (table : SymbolTable) (entries : List (String × List Nat))
    (done : List Cell) :
    resolveAll cells table file entries done =
      (resolveAll cells table none entries done).mapError (·.withFile file) := by
  induction entries generalizing done with
  | nil => rfl
  | cons entry entries ih =>
    obtain ⟨name, sites⟩ := entry
    unfold resolveAll
    rw [addressFor_eq_mapError]
    cases addressFor cells table none name sites with
    | error failure => rfl
    | ok address =>
      -- a cell that waits for no address would be a fault without a file
      cases hdone : resolveAt address sites done with
      | error v =>
        simp only [Except.mapError, hdone]
        rfl
      | ok done' =>
        simp only [Except.mapError, hdone]
        exact ih done'

theorem run_eq_withFile : run cells file = (run cells).withFile file := by
  unfold run
  dsimp only
  rw [resolveAll_eq_mapError, Logged.withFile_noting]
  cases resolveAll cells (.ofCells cells) none (SymbolTable.ofCells cells).pointers cells with
  | ok linked => rfl
  | error fault => rfl

end Linking

theorem Image.ofCells_eq_withFile (room : Room) (cells : List Cell) (length : Int)
    (file : Option String) :
    ofCells room cells length file = (ofCells room cells length).withFile file := by
  unfold ofCells
  by_cases hlength : length ≤ 0
  · rw [if_pos hlength, if_pos hlength]
    rfl
  rw [if_neg hlength, if_neg hlength]
  cases firstReference? cells with
  | some name =>
    have hcause := (Cause.unresolvedReference name).withFile_atLine none file
    exact congrArg (fun failure => Logged.fail (.failure failure)) hcause.symm
  | none =>
    dsimp only
    by_cases hlong : length < cells.length
    · rw [if_pos hlong, if_pos hlong, Logged.withFile_fail, Fault.withFile_failure,
        Failure.withFile_overCapacity]
    · rw [if_neg hlong, if_neg hlong, Logged.withFile_noting]
      cases zeros room (length.toNat - cells.length) with
      | error v => rfl
      | ok words => rfl

/-- An assembly under a name is the assembly without one, with the name filled in. -/
theorem Assembly.assemble_eq_withFile (room : Room) (text : String) (length : Int)
    (file : Option String) :
    assemble room text length file = (assemble room text length).withFile file := by
  unfold assemble
  by_cases hlength : length ≤ 0
  · rw [if_pos hlength, if_pos hlength]
    rfl
  rw [if_neg hlength, if_neg hlength, Logged.withFile_none]
  -- a stage that filled the name in already is not changed by filling it in again
  simp only [stages, Logged.withFile_bind]
  rw [Source.read_eq_withFile text file, Logged.withFile_withFile_self]
  simp only [Linking.run_eq_withFile _ file, Image.ofCells_eq_withFile _ _ _ file,
    Logged.withFile_withFile_self]

/-! ## Faults without a file -/

/-- A fault as a stage makes it that knows no file. -/
inductive Fault.Fresh : Fault → Prop
  | failure (kind : FailureKind) (message : String) (line col : Option Int)
      (hint : Option String) : Fresh (.failure (.new kind message line col hint))
  | invalid (v : InvalidValue) : Fresh (.invalid v)

theorem Fault.Caused.fresh {fault : Fault} (h : fault.Caused none) : fault.Fresh := by
  cases h with
  | failure cause line => exact .failure ..
  | overlong count => exact .invalid _

theorem Linking.fresh_of_run {cells : List Cell} {fault : Fault}
    (h : (run cells).result = .error fault) : fault.Fresh := by
  rw [run_result] at h
  split at h
  · next failure hfailure =>
    obtain rfl := Except.error.inj h
    obtain ⟨c, -, hc⟩ := List.exists_of_findSome?_eq_some hfailure
    unfold Cell.linkFailure? at hc
    split at hc
    · cases hc
    split at hc
    · obtain rfl := Option.some.inj hc
      exact .failure ..
    split at hc
    · cases hc
    · obtain rfl := Option.some.inj hc
      exact .failure ..
  · cases h

theorem Image.fresh_of_ofCells {room : Room} {cells : List Cell} {length : Int} {fault : Fault}
    (h : (ofCells room cells length).result = .error fault) : fault.Fresh := by
  unfold ofCells at h
  split at h
  · obtain rfl := Except.error.inj h
    exact .invalid _
  split at h
  · obtain rfl := Except.error.inj h
    exact .failure ..
  split at h
  · obtain rfl := Except.error.inj h
    exact .failure ..
  · rw [Logged.result_noting] at h
    split at h
    · obtain rfl := Except.error.inj h
      exact .invalid _
    · cases h

/-- An assembly without a name ends in no failure that has a file. -/
theorem Assembly.fresh_of_assemble {room : Room} {text : String} {length : Int} {fault : Fault}
    (h : (assemble room text length).result = .error fault) : fault.Fresh := by
  unfold assemble at h
  split at h
  · obtain rfl := Except.error.inj h
    exact .invalid _
  rw [Logged.withFile_none, stages] at h
  rcases Logged.result_bind_eq_error.mp h with hread | ⟨is, -, h⟩
  · exact (Source.caused_of_read hread).fresh
  rcases Logged.result_bind_eq_error.mp h with hemit | ⟨cells, -, h⟩
  · exact (Emission.caused_of_run hemit).fresh
  rcases Logged.result_bind_eq_error.mp h with hlink | ⟨linked, -, himage⟩
  · exact Linking.fresh_of_run hlink
  · exact Image.fresh_of_ofCells himage

/-! ## Two names -/

/-- Faults that differ in the file at most: each failure has its own, and its report is the
    rendering of its diagnostic. -/
inductive Fault.SameUpToFile (f g : Option String) : Fault → Fault → Prop
  | failure {a b : Failure} (kind : b.kind = a.kind) (file : a.diagnostic.file = f)
      (diagnostic : b.diagnostic = { a.diagnostic with file := g })
      (reportLeft : a.report = a.diagnostic.render)
      (reportRight : b.report = b.diagnostic.render) :
      SameUpToFile f g (.failure a) (.failure b)
  /-- Invalid values name no file. -/
  | invalid (v : InvalidValue) : SameUpToFile f g (.invalid v) (.invalid v)

theorem Fault.Fresh.sameUpToFile {fault : Fault} (h : fault.Fresh) (f g : Option String) :
    SameUpToFile f g (fault.withFile f) (fault.withFile g) := by
  cases h with
  | failure kind message line col hint =>
    rw [Fault.withFile_failure, Fault.withFile_failure, Failure.withFile_new,
      Failure.withFile_new]
    exact .failure rfl rfl rfl rfl rfl
  | invalid v => exact .invalid v

/-- Under two names a text is assembled with the same notices to the same image, or fails with the
    same fault up to the file. -/
theorem Assembly.agree_of_file (room : Room) (text : String) (length : Int) (f g : Option String) :
    (assemble room text length f).log = (assemble room text length g).log ∧
      Agree (Fault.SameUpToFile f g) Eq
        (assemble room text length f).result (assemble room text length g).result := by
  rw [assemble_eq_withFile room text length f, assemble_eq_withFile room text length g]
  refine ⟨rfl, ?_⟩
  cases hresult : (assemble room text length).result with
  | ok image =>
    rw [Logged.result_withFile_of_ok hresult, Logged.result_withFile_of_ok hresult]
    exact .ok rfl
  | error fault =>
    rw [Logged.result_withFile_of_error hresult, Logged.result_withFile_of_error hresult]
    exact .error ((fresh_of_assemble hresult).sameUpToFile f g)

end AccumulatorAsm
