/-
  AccumulatorAsm.Proofs.Source.Labels

  What becomes of the label lines of a text that can be read. Every statement line gives one
  instruction, and its label is the name of the label line above it, if only blank lines stand
  between the two. Every label line ends in one of three ways: one instruction takes the label,
  or one warning says that a later label line replaces it, or one warning says that no statement
  follows (`labelsBound_of_read`).

  The invariant `Progress` describes what was read so far by the lines alone. The label that
  waits is the one of the last line that is not blank, which is why it is either taken or
  replaced by the next such line.
-/

import Mathlib.Data.List.Forall2
import AccumulatorAsm.Proofs.Source.Order

namespace AccumulatorAsm

/-- Whether a notice tells that the label of a line is dropped. -/
def Notice.drops (lineno : Int) : Notice → Bool
  | .labelReplaced _ _ droppedLine _ => droppedLine = lineno
  | .labelUnused _ line => line = lineno
  | _ => false

/-- What a log tells of the label of a line. -/
def dropsOf (log : List Notice) (lineno : Int) : List Notice :=
  log.filter (·.drops lineno)

theorem dropsOf_append (log more : List Notice) (lineno : Int) :
    dropsOf (log ++ more) lineno = dropsOf log lineno ++ dropsOf more lineno :=
  List.filter_append ..

namespace Source

/-! ## Results -/

/-- The instruction is what its line says. -/
structure GivenBy (i : Instruction) (l : Int × String) : Prop where
  line : i.line = l.1
  read : Line.read l.2 = .ok (.statement i.mnemonic i.operands)

theorem GivenBy.not_names {i : Instruction} {l : Int × String} (h : GivenBy i l) (name : String) :
    ¬ Names l name := by
  intro hname
  obtain ⟨rest, hread⟩ := names_iff.mp hname
  cases h.read.symm.trans hread

/-- What becomes of a label line. -/
inductive LabelFate where
  | taken (i : Instruction)
  | replaced (next : Int) (name : String)
  | unused

/-- Line `l` gives the label `name`, and it ends that way. -/
def LabelFate.Holds (lines : List (Int × String)) (is : List Instruction) (log : List Notice)
    (l : Int × String) (name : String) : LabelFate → Prop
  | .taken i =>
    (∀ j, (j ∈ is ∧ Above lines l.1 j.line) ↔ j = i) ∧ i.label = some name ∧ dropsOf log l.1 = []
  | .replaced next name' =>
    (∀ i ∈ is, ¬ Above lines l.1 i.line) ∧
      (∃ m ∈ lines, m.1 = next ∧ Names m name' ∧ Above lines l.1 next) ∧
      dropsOf log l.1 = [.labelReplaced next name l.1 name']
  | .unused =>
    (∀ i ∈ is, ¬ Above lines l.1 i.line) ∧ IsLast lines l.1 ∧
      dropsOf log l.1 = [.labelUnused name l.1]

/-- Statement lines, instructions, label lines and warnings match. -/
structure LabelsBound (lines : List (Int × String)) (is : List Instruction)
    (log : List Notice) : Prop where
  statements : List.Forall₂ GivenBy is (lines.filter isStatementLine)
  labels : ∀ i ∈ is, ∀ name,
    i.label = some name ↔ ∃ l ∈ lines, Names l name ∧ Above lines l.1 i.line
  fates : ∀ l ∈ lines, IsLabelLine l →
    ∃ name, Names l name ∧ ∃! fate : LabelFate, fate.Holds lines is log l name

/-! ## Notices of a label line -/

/-- The notice of a replaced label tells of the line of that label only. -/
theorem dropsOf_labelNotices_self (lineno k : Int) (old name rest : String) :
    dropsOf (Reading.labelNotices (some ⟨old, k⟩) lineno name rest) k =
      [.labelReplaced lineno old k name] := by
  unfold Reading.labelNotices
  split <;> simp [dropsOf, Notice.drops]

theorem dropsOf_labelNotices_of_ne {pending : Option PendingLabel} {k : Int}
    (h : ∀ old, pending ≠ some ⟨old, k⟩) (lineno : Int) (name rest : String) :
    dropsOf (Reading.labelNotices pending lineno name rest) k = [] := by
  unfold Reading.labelNotices
  cases pending with
  | none => split <;> simp [dropsOf, Notice.drops]
  | some old =>
    have hline : old.line ≠ k := by
      rintro rfl
      exact h old.name rfl
    split <;> simp [dropsOf, Notice.drops, hline]

theorem dropsOf_endNotices_self {r : Reading} {name : String} {k : Int}
    (h : r.pending = some ⟨name, k⟩) : dropsOf r.endNotices k = [.labelUnused name k] := by
  simp [Reading.endNotices, h, dropsOf, Notice.drops]

theorem dropsOf_endNotices_of_ne {r : Reading} {k : Int}
    (h : ∀ name, r.pending ≠ some ⟨name, k⟩) : dropsOf r.endNotices k = [] := by
  unfold Reading.endNotices
  cases hp : r.pending with
  | none => simp [dropsOf, Notice.drops]
  | some p =>
    have hline : p.line ≠ k := by
      rintro rfl
      exact h p.name hp
    simp [dropsOf, Notice.drops, hline]

/-! ## Replaced labels -/

/-- The notice tells of label line `k` and of another label line below it. -/
def Replaces (lines : List (Int × String)) (k : Int) (notice : Notice) : Prop :=
  ∃ l ∈ lines, ∃ next ∈ lines, ∃ name name', l.1 = k ∧ Names l name ∧ Names next name' ∧
    Above lines k next.1 ∧ notice = .labelReplaced next.1 name k name'

/-- A log tells of line `k` if another label line replaces its label. -/
inductive Dropped (lines : List (Int × String)) (log : List Notice) (k : Int) : Prop
  | replaced {notice : Notice} (h : Replaces lines k notice) (hlog : dropsOf log k = [notice])
  | kept (h : ∀ notice, ¬ Replaces lines k notice) (hlog : dropsOf log k = [])

/-- What is known after some lines: the instructions, the label that waits and the notices of
    dropped labels are those of the lines. -/
structure Progress (lines : List (Int × String)) (log : List Notice) (r : Reading) : Prop where
  statements : List.Forall₂ GivenBy r.instructions (lines.filter isStatementLine)
  labels : ∀ i ∈ r.instructions, ∀ name,
    i.label = some name ↔ ∃ l ∈ lines, Names l name ∧ Above lines l.1 i.line
  pending : ∀ p, r.pending = some p ↔
    ∃ l ∈ lines, Names l p.name ∧ l.1 = p.line ∧ IsLast lines l.1
  dropped : ∀ k, Dropped lines log k

theorem exists_of_mem_of_forall₂ {α β : Type} {R : α → β → Prop} {as : List α} {bs : List β}
    (h : List.Forall₂ R as bs) {a : α} (ha : a ∈ as) : ∃ b ∈ bs, R a b := by
  induction h with
  | nil => cases ha
  | cons hab _ ih =>
    rcases List.mem_cons.mp ha with rfl | ha
    · exact ⟨_, List.mem_cons_self, hab⟩
    · obtain ⟨b, hb, hab⟩ := ih ha
      exact ⟨b, List.mem_cons_of_mem _ hb, hab⟩

namespace Progress

variable {lines : List (Int × String)} {x : Int × String} {log : List Notice} {r : Reading}

theorem exists_line (h : Progress lines log r) {i : Instruction} (hi : i ∈ r.instructions) :
    ∃ l ∈ lines, isStatementLine l = true ∧ GivenBy i l := by
  obtain ⟨l, hl, hgiven⟩ := exists_of_mem_of_forall₂ h.statements hi
  obtain ⟨hl, hstatement⟩ := List.mem_filter.mp hl
  exact ⟨l, hl, hstatement, hgiven⟩

/-- A further line does not come between an instruction and its label. -/
theorem labels_concat (h : Progress lines log r) (hx : ∀ l ∈ lines, l.1 < x.1) {i : Instruction}
    (hi : i ∈ r.instructions) (name : String) :
    i.label = some name ↔
      ∃ l ∈ lines ++ [x], Names l name ∧ Above (lines ++ [x]) l.1 i.line := by
  obtain ⟨b, hb, -, hgiven⟩ := h.exists_line hi
  have hle : i.line ≤ x.1 := hgiven.line ▸ Int.le_of_lt (hx b hb)
  have hself : ¬ Above lines x.1 i.line := fun habove => absurd habove.1 (Int.not_lt.mpr hle)
  rw [h.labels i hi]
  simp [above_concat hle, or_and_right, exists_or, hself]

/-- The label that waits is still that of the last line, or the further line gives it. -/
theorem pending_concat (h : Progress lines log r) (hx : ∀ l ∈ lines, l.1 < x.1)
    (p : PendingLabel) :
    (∃ l ∈ lines ++ [x], Names l p.name ∧ l.1 = p.line ∧ IsLast (lines ++ [x]) l.1) ↔
      (r.pending = some p ∧ coreChars x.2.toList = []) ∨ (Names x p.name ∧ x.1 = p.line) := by
  have hself : IsLast (lines ++ [x]) x.1 := fun b hb hlt =>
    absurd (le_of_mem_concat hx hb) (Int.not_le.mpr hlt)
  rw [h.pending]
  constructor
  · rintro ⟨l, hl, hname, hline, hlast⟩
    rcases List.mem_append.mp hl with hl | hl
    · obtain ⟨hlast, hcore⟩ := isLast_concat.mp hlast
      exact .inl ⟨⟨l, hl, hname, hline, hlast⟩, hcore (hx l hl)⟩
    · obtain rfl := List.mem_singleton.mp hl
      exact .inr ⟨hname, hline⟩
  · rintro (⟨⟨l, hl, hname, hline, hlast⟩, hcore⟩ | ⟨hname, hline⟩)
    · have hlast' : IsLast (lines ++ [x]) l.1 := isLast_concat.mpr ⟨hlast, fun _ => hcore⟩
      exact ⟨l, List.mem_append_left _ hl, hname, hline, hlast'⟩
    · exact ⟨x, by simp, hname, hline, hself⟩

/-- A further label line replaces the label that waits and no other one. -/
theorem replaces_concat (h : Progress lines log r) (hx : ∀ l ∈ lines, l.1 < x.1) {k : Int}
    {notice : Notice} :
    Replaces (lines ++ [x]) k notice ↔ Replaces lines k notice ∨
      ∃ name name', r.pending = some ⟨name, k⟩ ∧ Names x name' ∧
        notice = .labelReplaced x.1 name k name' := by
  constructor
  · rintro ⟨l, hl, next, hnext, name, name', rfl, hname, hname', habove, rfl⟩
    -- the further line is below all others, so it cannot be the upper one
    have hlines : l ∈ lines := by
      rcases List.mem_append.mp hl with hl | hl
      · exact hl
      · rw [List.mem_singleton.mp hl] at habove
        exact absurd (le_of_mem_concat hx hnext) (Int.not_le.mpr habove.1)
    rcases List.mem_append.mp hnext with hnext | hnext
    · have hle : next.1 ≤ x.1 := Int.le_of_lt (hx next hnext)
      exact .inl ⟨l, hlines, next, hnext, name, name', rfl, hname, hname',
        (above_concat hle).mp habove, rfl⟩
    · obtain rfl := List.mem_singleton.mp hnext
      have hlast := ((above_concat_self hx).mp habove).2
      exact .inr ⟨name, name', (h.pending _).mpr ⟨l, hlines, hname, rfl, hlast⟩, hname', rfl⟩
  · rintro (⟨l, hl, next, hnext, name, name', hk, hname, hname', habove, rfl⟩ |
      ⟨name, name', hp, hname', rfl⟩)
    · have hle : next.1 ≤ x.1 := Int.le_of_lt (hx next hnext)
      exact ⟨l, List.mem_append_left _ hl, next, List.mem_append_left _ hnext, name, name', hk,
        hname, hname', (above_concat hle).mpr habove, rfl⟩
    · obtain ⟨l, hl, hname, rfl, hk⟩ := (h.pending _).mp hp
      exact ⟨l, List.mem_append_left _ hl, x, by simp, name, name', rfl, hname, hname',
        (above_concat_self hx).mpr ⟨hx l hl, hk⟩, rfl⟩

/-- Nothing was noted of the label that waits. -/
theorem dropsOf_of_pending (h : Progress lines log r) {p : PendingLabel}
    (hp : r.pending = some p) : dropsOf log p.line = [] := by
  cases h.dropped p.line with
  | replaced hreplaces _ =>
    -- only blank lines are below it
    obtain ⟨l, -, -, hline, hlast⟩ := (h.pending p).mp hp
    obtain ⟨-, -, next, hnext, -, name', -, -, hname', habove, -⟩ := hreplaces
    rw [← hline] at habove
    exact absurd habove (hlast.not_above hnext hname'.core_ne_nil)
  | kept _ hlog => exact hlog

/-- The label that waits is that of the last label line above a further line. -/
theorem pending_iff_above (h : Progress lines log r) (hx : ∀ l ∈ lines, l.1 < x.1)
    (name : String) :
    r.pending.map (·.name) = some name ↔
      ∃ l ∈ lines ++ [x], Names l name ∧ Above (lines ++ [x]) l.1 x.1 := by
  simp only [above_concat_self hx, Option.map_eq_some_iff]
  constructor
  · rintro ⟨p, hp, rfl⟩
    obtain ⟨l, hl, hname, -, hlast⟩ := (h.pending p).mp hp
    exact ⟨l, List.mem_append_left _ hl, hname, hx l hl, hlast⟩
  · rintro ⟨l, hl, hname, hlt, hlast⟩
    rcases List.mem_append.mp hl with hl | hl
    · exact ⟨⟨name, l.1⟩, (h.pending _).mpr ⟨l, hl, hname, rfl, hlast⟩, rfl⟩
    · rw [List.mem_singleton.mp hl] at hlt
      exact absurd hlt (Int.lt_irrefl _)

/-- A further line tells of the label that waits if it is a label line. -/
theorem dropped_concat (h : Progress lines log r) (hx : ∀ l ∈ lines, l.1 < x.1) {line : Line}
    (hread : Line.read x.2 = .ok line) (k : Int) :
    Dropped (lines ++ [x]) (log ++ (r.add x.1 line).1) k := by
  by_cases hreplaced : ∃ name name', r.pending = some ⟨name, k⟩ ∧ Names x name'
  · obtain ⟨name, name', hp, hname'⟩ := hreplaced
    have hlog : dropsOf log k = [] := h.dropsOf_of_pending hp
    obtain ⟨rest, hread'⟩ := names_iff.mp hname'
    obtain rfl := Except.ok.inj (hread.symm.trans hread')
    refine .replaced ((h.replaces_concat hx).mpr (.inr ⟨name, name', hp, hname', rfl⟩)) ?_
    rw [dropsOf_append, hlog, List.nil_append, Reading.add, hp, dropsOf_labelNotices_self]
  · have hadd : dropsOf (r.add x.1 line).1 k = [] := by
      cases line with
      | blank => rfl
      | label name rest =>
        have hname : Names x name := names_iff.mpr ⟨rest, hread⟩
        exact dropsOf_labelNotices_of_ne (fun old hold => hreplaced ⟨old, name, hold, hname⟩) ..
      | statement m ops => rfl
    cases h.dropped k with
    | replaced hreplaces hlog =>
      refine .replaced ((h.replaces_concat hx).mpr (.inl hreplaces)) ?_
      rw [dropsOf_append, hlog, hadd, List.append_nil]
    | kept hnone hlog =>
      refine .kept (fun notice hreplaces => ?_) (by rw [dropsOf_append, hlog, hadd]; rfl)
      rcases (h.replaces_concat hx).mp hreplaces with hreplaces | ⟨name, name', hp, hname', -⟩
      · exact hnone notice hreplaces
      · exact hreplaced ⟨name, name', hp, hname'⟩

/-- A further line is taken in. -/
theorem add (h : Progress lines log r) (hx : ∀ l ∈ lines, l.1 < x.1) {line : Line}
    (hread : Line.read x.2 = .ok line) :
    Progress (lines ++ [x]) (log ++ (r.add x.1 line).1) (r.add x.1 line).2 := by
  have hform := Line.read_eq_ok_iff.mp hread
  have hdropped := h.dropped_concat hx hread
  have hnames : ∀ name, Names x name ↔ ∃ rest, line = .label name rest := by
    simp [names_iff, hread]
  have hfilter := isStatementLine_iff_of_read hread
  cases line with
  | blank =>
    have hcore : coreChars x.2.toList = [] := hform.core_eq_nil_iff.mpr rfl
    refine ⟨?_, fun i hi => h.labels_concat hx hi, fun p => ?_, hdropped⟩
    · simpa [Reading.add, hfilter] using h.statements
    · rw [h.pending_concat hx]
      simp [Reading.add, hcore, hnames]
  | label name rest =>
    have hcore : coreChars x.2.toList ≠ [] := by simp [hform.core_eq_nil_iff]
    refine ⟨?_, fun i hi => h.labels_concat hx hi, fun p => ?_, hdropped⟩
    · simpa [Reading.add, hfilter] using h.statements
    · rw [h.pending_concat hx]
      cases p
      simp [Reading.add, hcore, hnames]
  | statement m ops =>
    have hcore : coreChars x.2.toList ≠ [] := by simp [hform.core_eq_nil_iff]
    refine ⟨?_, fun i hi => ?_, fun p => ?_, hdropped⟩
    · have hgiven : GivenBy
          { kind := m.kind, operands := ops, indirect := m.indirect,
            label := r.pending.map (·.name), line := x.1 } x := ⟨rfl, hread⟩
      rw [List.filter_append, List.filter_singleton, hfilter.mpr ⟨m, ops, rfl⟩, cond_true]
      exact List.rel_append h.statements (.cons hgiven .nil)
    · rcases List.mem_append.mp hi with hi | hi
      · exact h.labels_concat hx hi
      · rw [List.mem_singleton.mp hi]
        exact h.pending_iff_above hx
    · rw [h.pending_concat hx]
      simp [Reading.add, hcore, hnames]

theorem nil : Progress [] [] {} where
  statements := .nil
  labels := by simp
  pending := by simp
  dropped _ := .kept (fun _ ⟨_, hl, _⟩ => nomatch hl) rfl

/-- What is known after all lines. -/
theorem of_addLines (hlines : lines.Pairwise (·.1 < ·.1))
    (h : (Reading.addLines {} lines).result = .ok r) :
    Progress lines (Reading.addLines {} lines).log r := by
  induction lines using List.reverseRecOn generalizing r with
  | nil =>
    obtain rfl := Except.ok.inj h
    exact nil
  | append_singleton lines x ih =>
    obtain ⟨hlines, hx⟩ := pairwise_concat_iff.mp hlines
    rw [Reading.addLines_append] at h ⊢
    obtain ⟨r₀, hr₀, hlast⟩ := Logged.result_bind_eq_ok.mp h
    rw [Reading.addLines_singleton] at hlast
    rw [Logged.bind_of_ok hr₀, Reading.addLines_singleton]
    cases hread : Line.read x.2 with
    | error cause =>
      rw [Reading.addLine_of_error hread] at hlast
      cases hlast
    | ok line =>
      rw [Reading.addLine_of_ok hread] at hlast ⊢
      obtain rfl := Except.ok.inj hlast
      exact (ih hlines hr₀).add hx hread

/-! ### Label lines and what is below them -/

section Below

variable {k : Int} {b : Int × String}

/-- Instructions are told apart by their lines. -/
theorem eq_of_line_eq (h : Progress lines log r) (hlines : lines.Pairwise (·.1 < ·.1))
    {i j : Instruction} (hi : i ∈ r.instructions) (hj : j ∈ r.instructions)
    (hline : i.line = j.line) : i = j := by
  have hmap : r.instructions.map (·.line) = (lines.filter isStatementLine).map Prod.fst := by
    rw [← List.forall₂_eq_eq_eq, List.forall₂_map_left_iff, List.forall₂_map_right_iff]
    exact h.statements.imp fun _ _ hgiven => hgiven.line
  have hlt : (r.instructions.map (·.line)).Pairwise (· < ·) := by
    rw [hmap]
    exact List.pairwise_map.mpr (hlines.filter _)
  exact eq_of_map_pairwise_lt hlt hi hj hline

/-- An instruction below a label line is that of the first line that is not blank. -/
theorem givenBy_of_above (h : Progress lines log r) (hlines : lines.Pairwise (·.1 < ·.1))
    (hb : b ∈ lines) (hcore : coreChars b.2.toList ≠ []) (habove : Above lines k b.1)
    {i : Instruction} (hi : i ∈ r.instructions) (hi' : Above lines k i.line) : GivenBy i b := by
  obtain ⟨l, hl, hstatement, hgiven⟩ := h.exists_line hi
  rw [hgiven.line] at hi'
  have hline := hi'.unique hl hb (isStatementLine_iff.mp hstatement).1 hcore habove
  exact eq_of_fst_eq hlines hl hb hline ▸ hgiven

theorem names_of_replaces (hlines : lines.Pairwise (·.1 < ·.1)) (hb : b ∈ lines)
    (hcore : coreChars b.2.toList ≠ []) (habove : Above lines k b.1) {notice : Notice}
    (h : Replaces lines k notice) :
    ∃ l ∈ lines, ∃ name name', l.1 = k ∧ Names l name ∧ Names b name' ∧
      notice = .labelReplaced b.1 name k name' := by
  obtain ⟨l, hl, next, hnext, name, name', hk, hname, hname', hnext', rfl⟩ := h
  have hline := hnext'.unique hnext hb hname'.core_ne_nil hcore habove
  obtain rfl := eq_of_fst_eq hlines hnext hb hline
  exact ⟨l, hl, name, name', hk, hname, hname', rfl⟩

/-- A label above a line that is not blank does not wait. -/
theorem dropsOf_append_endNotices (h : Progress lines log r) (hb : b ∈ lines)
    (hcore : coreChars b.2.toList ≠ []) (habove : Above lines k b.1) :
    dropsOf (log ++ r.endNotices) k = dropsOf log k := by
  have hend : dropsOf r.endNotices k = [] := by
    refine dropsOf_endNotices_of_ne fun old hold => ?_
    obtain ⟨l, -, -, rfl, hlast⟩ := (h.pending _).mp hold
    exact hlast.not_above hb hcore habove
  rw [dropsOf_append, hend, List.append_nil]

end Below

/-- A label line with blank lines only below it is the one that waits. -/
theorem holds_unused (h : Progress lines log r) {l : Int × String} (hl : l ∈ lines)
    {name : String} (hname : Names l name) (hlast : IsLast lines l.1) :
    LabelFate.unused.Holds lines r.instructions (log ++ r.endNotices) l name := by
  have hp : r.pending = some ⟨name, l.1⟩ := (h.pending _).mpr ⟨l, hl, hname, rfl, hlast⟩
  refine ⟨fun i hi habove => ?_, hlast, ?_⟩
  · obtain ⟨b, hb, hstatement, hgiven⟩ := h.exists_line hi
    rw [hgiven.line] at habove
    exact hlast.not_above hb (isStatementLine_iff.mp hstatement).1 habove
  · have hlog : dropsOf log l.1 = [] := h.dropsOf_of_pending hp
    rw [dropsOf_append, hlog, List.nil_append, dropsOf_endNotices_self hp]

/-- A label line above another label line is replaced by it. -/
theorem holds_replaced (h : Progress lines log r) (hlines : lines.Pairwise (·.1 < ·.1))
    {l b : Int × String} (hl : l ∈ lines) (hb : b ∈ lines) {name name' : String}
    (hname : Names l name) (hname' : Names b name') (habove : Above lines l.1 b.1) :
    (LabelFate.replaced b.1 name').Holds lines r.instructions (log ++ r.endNotices) l name := by
  refine ⟨fun i hi hi' => ?_, ⟨b, hb, rfl, hname', habove⟩, ?_⟩
  · have hgiven := h.givenBy_of_above hlines hb hname'.core_ne_nil habove hi hi'
    exact hgiven.not_names name' hname'
  · rw [h.dropsOf_append_endNotices hb hname'.core_ne_nil habove]
    cases h.dropped l.1 with
    | replaced hreplaces hlog =>
      obtain ⟨m, hm, old, new, hline, hold, hnew, rfl⟩ :=
        names_of_replaces hlines hb hname'.core_ne_nil habove hreplaces
      obtain rfl := eq_of_fst_eq hlines hm hl hline
      rw [hlog, hold.unique hname, hnew.unique hname']
    | kept hnone _ =>
      exact absurd ⟨l, hl, b, hb, name, name', rfl, hname, hname', habove, rfl⟩ (hnone _)

/-- A label line above a statement line gives its instruction the label. -/
theorem exists_holds_taken (h : Progress lines log r) (hlines : lines.Pairwise (·.1 < ·.1))
    {l b : Int × String} (hl : l ∈ lines) (hb : b ∈ lines) {name : String}
    (hname : Names l name) (hstatement : isStatementLine b = true)
    (habove : Above lines l.1 b.1) :
    ∃ i, (LabelFate.taken i).Holds lines r.instructions (log ++ r.endNotices) l name := by
  have hcore := (isStatementLine_iff.mp hstatement).1
  obtain ⟨i, hi, hgiven⟩ :=
    exists_of_mem_of_forall₂ h.statements.flip (List.mem_filter.mpr ⟨hb, hstatement⟩)
  have hi' : Above lines l.1 i.line := hgiven.line ▸ habove
  refine ⟨i, fun j => ⟨?_, ?_⟩, (h.labels i hi name).mpr ⟨l, hl, hname, hi'⟩, ?_⟩
  · rintro ⟨hj, hj'⟩
    have hgiven' := h.givenBy_of_above hlines hb hcore habove hj hj'
    exact h.eq_of_line_eq hlines hj hi (hgiven'.line.trans hgiven.line.symm)
  · rintro rfl
    exact ⟨hi, hi'⟩
  · rw [h.dropsOf_append_endNotices hb hcore habove]
    cases h.dropped l.1 with
    | replaced hreplaces _ =>
      -- the first line below is a statement line and no label line
      obtain ⟨-, -, -, name', -, -, hname', -⟩ :=
        names_of_replaces hlines hb hcore habove hreplaces
      exact absurd hname' (hgiven.not_names name')
    | kept _ hlog => exact hlog

theorem exists_fate (h : Progress lines log r) (hlines : lines.Pairwise (·.1 < ·.1))
    (hread : ∀ l ∈ lines, ∃ line, Line.read l.2 = .ok line) {l : Int × String} (hl : l ∈ lines)
    {name : String} (hname : Names l name) :
    ∃ fate : LabelFate, fate.Holds lines r.instructions (log ++ r.endNotices) l name := by
  rcases isLast_or_exists_above hlines l.1 with hlast | ⟨b, hb, hcore, habove⟩
  · exact ⟨_, h.holds_unused hl hname hlast⟩
  · obtain ⟨line, hline⟩ := hread b hb
    cases line with
    | blank => exact absurd ((Line.read_eq_ok_iff.mp hline).core_eq_nil_iff.mpr rfl) hcore
    | label name' rest =>
      have hname' : Names b name' := names_iff.mpr ⟨rest, hline⟩
      exact ⟨_, h.holds_replaced hlines hl hb hname hname' habove⟩
    | statement m ops =>
      have hstatement := (isStatementLine_iff_of_read hline).mpr ⟨m, ops, rfl⟩
      obtain ⟨i, hi⟩ := h.exists_holds_taken hlines hl hb hname hstatement habove
      exact ⟨_, hi⟩

end Progress

/-- A label line ends in one way only. -/
theorem LabelFate.Holds.unique {lines : List (Int × String)} {is : List Instruction}
    {log : List Notice} {l : Int × String} {name : String} {fate fate' : LabelFate}
    (h : fate.Holds lines is log l name) (h' : fate'.Holds lines is log l name) :
    fate = fate' := by
  cases fate with
  | taken i =>
    obtain ⟨hi, habove⟩ := (h.1 i).mpr rfl
    cases fate' with
    | taken j => rw [(h'.1 i).mp ⟨hi, habove⟩]
    | replaced => exact absurd habove (h'.1 i hi)
    | unused => exact absurd habove (h'.1 i hi)
  | replaced next name' =>
    cases fate' with
    | taken j =>
      obtain ⟨hj, habove⟩ := (h'.1 j).mpr rfl
      exact absurd habove (h.1 j hj)
    | replaced next' name'' =>
      have hlog := h.2.2.symm.trans h'.2.2
      simp only [List.cons.injEq, Notice.labelReplaced.injEq] at hlog
      rw [hlog.1.1, hlog.1.2.2.2]
    | unused => cases h.2.2.symm.trans h'.2.2
  | unused =>
    cases fate' with
    | taken j =>
      obtain ⟨hj, habove⟩ := (h'.1 j).mpr rfl
      exact absurd habove (h.1 j hj)
    | replaced => cases h.2.2.symm.trans h'.2.2
    | unused => rfl

/-! ## Whole texts -/

/-- In a text that can be read, statement lines and instructions match, every instruction has the
    label above it, and every label line ends in exactly one way. -/
theorem labelsBound_of_read {text : String} {file : Option String} {is : List Instruction}
    (h : (read text file).result = .ok is) :
    LabelsBound (Text.numberedLines text) is (read text file).log := by
  have hlines := Text.pairwise_numberedLines text
  have hread := exists_line_of_read h
  obtain ⟨r, hr, rfl⟩ := read_eq_ok_iff.mp h
  have hprogress := Progress.of_addLines hlines hr
  have hlog : (read text file).log =
      (Reading.addLines {} (Text.numberedLines text)).log ++ r.endNotices := by
    rw [read, Logged.bind_of_ok (Logged.result_withFile_of_ok hr file), Logged.log_withFile,
      Reading.finish]
  rw [hlog]
  refine ⟨hprogress.statements, hprogress.labels, fun l hl hlabel => ?_⟩
  obtain ⟨line, hline⟩ := hread l hl
  have hform := Line.read_eq_ok_iff.mp hline
  obtain ⟨name, rest, rfl⟩ := hform.head?_eq_dollar_iff.mp hlabel
  obtain ⟨fate, hfate⟩ := hprogress.exists_fate hlines hread hl ⟨rest, hform⟩
  exact ⟨name, ⟨rest, hform⟩, fate, hfate, fun fate' hfate' => hfate'.unique hfate⟩

/-- A label that is replaced, one name given twice, and a label at the end. -/
theorem labelsBound_of_read_replaced :
    let text := "$a:\n$b: x\n\nnop\n$b:\n jmp $b\n$c:\n"
    let is : List Instruction :=
      [{ kind := .opcode .nop, label := some "b", line := 4 },
       { kind := .opcode .jmp, operands := [.sym "b"], label := some "b", line := 6 }]
    let log : List Notice :=
      [.textAfterLabel 2 "b" "x", .labelReplaced 2 "a" 1 "b", .labelUnused "c" 7,
       .instructionsRead 2]
    read text none = ⟨log, .ok is⟩ ∧ LabelsBound (Text.numberedLines text) is log := by
  intro text is log
  have h : read text none = ⟨log, .ok is⟩ := by
    ext1 <;> decide
  have hbound : LabelsBound (Text.numberedLines text) is (read text none).log :=
    labelsBound_of_read (by rw [h])
  rw [h] at hbound
  exact ⟨h, hbound⟩

end Source

end AccumulatorAsm
