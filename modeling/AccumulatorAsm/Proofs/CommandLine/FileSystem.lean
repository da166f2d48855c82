/-
  AccumulatorAsm.Proofs.CommandLine.FileSystem

  File systems of any kind. Paths lead to places, and two paths may lead to the same one; files are
  at places. Nothing is asked of reading. Writing replaces or adds the file at the place of its
  path and no other one, and if it fails there is no new state at all.

  A disk is one of them (`Disk.fileSystem`).
-/

import AccumulatorAsm.CommandLine.Disk
import AccumulatorAsm.Proofs.Text.Utf8

namespace AccumulatorAsm.CommandLine

structure FileSystem where
  State : Type
  Place : Type
  /-- The place that a path leads to, where a file need not be yet. -/
  place? : State → String → Option Place
  file? : State → Place → Option (List UInt8)
  read : State → String → Except AccessFault (List UInt8)
  write : State → String → String → Except AccessFault State
  /-- A path leads to the same place before it is written and after, the octets of the text are
      there, and no other place has changed. -/
  exists_of_write : ∀ {s s' : State} {path text : String}, write s path text = .ok s' →
    ∃ p, place? s path = some p ∧ place? s' path = some p ∧
      file? s' p = some (Utf8.encode text) ∧ ∀ q, q ≠ p → file? s' q = file? s q

/-- The access that a program has to a file system. -/
def FileSystem.access (fs : FileSystem) : FileAccess (StateM fs.State) where
  read path := do return fs.read (← get) path
  write path text := do
    match fs.write (← get) path text with
    | .ok s =>
      set s
      return .ok ()
    | .error fault => return .error fault

namespace FileSystem

variable {fs : FileSystem} {α : Type} {s s' : fs.State} {path text : String}

theorem run_read_bind (s : fs.State) (path : String)
    (k : Except AccessFault (List UInt8) → StateM fs.State α) :
    (fs.access.read path >>= k).run s = (k (fs.read s path)).run s := rfl

theorem run_write_bind_of_ok (h : fs.write s path text = .ok s')
    (k : Except AccessFault Unit → StateM fs.State α) :
    (fs.access.write path text >>= k).run s = (k (.ok ())).run s' := by
  have hwrite : (fs.access.write path text).run s = (.ok (), s') := by
    show (match fs.write s path text with | .ok s => _ | .error fault => _ : StateM _ _).run s = _
    rw [h]
    rfl
  rw [StateT.run_bind, hwrite]
  rfl

/-- A write that fails leaves the state as it is. -/
theorem run_write_bind_of_error {fault : AccessFault} (h : fs.write s path text = .error fault)
    (k : Except AccessFault Unit → StateM fs.State α) :
    (fs.access.write path text >>= k).run s = (k (.error fault)).run s := by
  have hwrite : (fs.access.write path text).run s = (.error fault, s) := by
    show (match fs.write s path text with | .ok s => _ | .error fault => _ : StateM _ _).run s = _
    rw [h]
    rfl
  rw [StateT.run_bind, hwrite]
  rfl

/-- Of all files only that of a path differs between two states, and now it holds a text. -/
def WritesOnly (fs : FileSystem) (s s' : fs.State) (path text : String) : Prop :=
  ∃ p, fs.place? s path = some p ∧ fs.place? s' path = some p ∧
    fs.file? s' p = some (Utf8.encode text) ∧ ∀ q, q ≠ p → fs.file? s' q = fs.file? s q

theorem writesOnly_of_write (h : fs.write s path text = .ok s') : fs.WritesOnly s s' path text :=
  fs.exists_of_write h

end FileSystem

/-! ## Disks -/

namespace Disk

variable (d : Disk) (p : Path) (octets : List UInt8)

theorem file?_put_self : (d.put p octets).file? p = some octets := by
  simp [file?, put]

theorem file?_put_of_ne {q : Path} (h : q ≠ p) : (d.put p octets).file? q = d.file? q := by
  -- entries of `p` go, and none of them was found under `q`
  have hfilter (files : List (Path × List UInt8)) :
      (files.filter (·.1 ≠ p)).lookup q = files.lookup q := by
    induction files with
    | nil => rfl
    | cons f files ih =>
      by_cases hf : f.1 = p
      · have hq : (q == f.1) = false := by
          rw [hf]
          exact beq_false_of_ne h
        rw [List.filter_cons_of_neg (by simp [hf]), ih, List.lookup_cons, hq]
      · rw [List.filter_cons_of_pos (by simp [hf]), List.lookup_cons, List.lookup_cons, ih]
  have hq : (q == p) = false := beq_false_of_ne h
  show List.lookup q ((p, octets) :: d.files.filter (·.1 ≠ p)) = _
  rw [List.lookup_cons, hq, hfilter]
  rfl

/-- A file more, or other octets in one, take no directory away. -/
theorem isDir_put {q : Path} (h : d.isDir q) : (d.put p octets).isDir q := by
  simp only [isDir, Bool.or_eq_true, List.any_eq_true] at h ⊢
  rcases h with h | ⟨f, hf, hin⟩
  · exact .inl h
  · -- if the entry goes, the new one is at the same path
    refine .inr ?_
    by_cases hfp : f.1 = p
    · exact ⟨(p, octets), List.mem_cons_self, hfp ▸ hin⟩
    · exact ⟨f, List.mem_cons_of_mem _ (List.mem_filter.mpr ⟨hf, by simp [hfp]⟩), hin⟩

theorem descend_put {place place' : Path} {part : String} (h : d.descend place part = .ok place') :
    (d.put p octets).descend place part = .ok place' := by
  unfold descend at h
  by_cases hdir : d.isDir place
  · rw [if_pos hdir] at h
    rw [descend, if_pos (d.isDir_put p octets hdir)]
    exact h
  · rw [if_neg hdir] at h
    split at h <;> cases h

theorem foldlM_descend_put {parts : List String} {place place' : Path}
    (h : parts.foldlM d.descend place = .ok place') :
    parts.foldlM (d.put p octets).descend place = .ok place' := by
  induction parts generalizing place with
  | nil => exact h
  | cons part parts ih =>
    rw [List.foldlM_cons] at h ⊢
    cases hpart : d.descend place part with
    | error fault =>
      rw [hpart] at h
      cases h
    | ok next =>
      rw [hpart] at h
      rw [d.descend_put p octets hpart]
      exact ih h

/-- What a path leads to is where it leads after a file is written. -/
theorem locate_put {path : String} {place : Path} (h : d.locate path = .ok place) :
    (d.put p octets).locate path = .ok place := by
  unfold locate follow at h ⊢
  by_cases hempty : path = ""
  · rw [if_pos hempty] at h
    cases h
  rw [if_neg hempty] at h ⊢
  by_cases hlong : pathLimit < path.utf8ByteSize
  · rw [if_pos hlong] at h
    cases h
  rw [if_neg hlong] at h ⊢
  exact d.foldlM_descend_put p octets h

theorem locate_of_locateForWriting {path : String} {place : Path}
    (h : d.locateForWriting path = .ok place) : d.locate path = .ok place := by
  unfold locateForWriting at h
  split at h
  · split at h <;> cases h
  · split at h
    · cases h
    next place' hplace =>
    split at h
    · cases h
    · obtain rfl := Except.ok.inj h
      exact hplace

theorem exists_of_write {d d' : Disk} {path text : String} (h : d.write path text = .ok d') :
    ∃ p, (d.locate path).toOption = some p ∧ (d'.locate path).toOption = some p ∧
      d'.file? p = some (Utf8.encode text) ∧ ∀ q, q ≠ p → d'.file? q = d.file? q := by
  unfold write at h
  split at h
  · cases h
  next place hplace =>
  obtain rfl := Except.ok.inj h
  have hlocate := d.locate_of_locateForWriting hplace
  refine ⟨place, ?_, ?_, d.file?_put_self place _, fun q hq => d.file?_put_of_ne place _ hq⟩
  · rw [hlocate]
    rfl
  · rw [d.locate_put place _ hlocate]
    rfl

def fileSystem : FileSystem where
  State := Disk
  Place := Path
  place? d path := (d.locate path).toOption
  file? := file?
  read := read
  write := write
  exists_of_write := exists_of_write

theorem access_fileSystem : fileSystem.access = access := by
  have hwrite : fileSystem.access.write = access.write := by
    funext path text
    refine bind_congr fun d => ?_
    cases h : d.write path text with
    | ok d' =>
      have hfs : fileSystem.write d path text = .ok d' := h
      rw [hfs]
      rfl
    | error fault =>
      have hfs : fileSystem.write d path text = .error fault := h
      rw [hfs]
      rfl
  show FileAccess.mk access.read fileSystem.access.write = access
  rw [hwrite]

end Disk

end AccumulatorAsm.CommandLine
