/-
  AccumulatorAsm.Proofs.CommandLine.Options

  What accepted arguments ask for. Every length among them is positive (`pos_of_parse`), and one
  more `-v` in front of them changes nothing but the verbosity (`parse_cons_verbose`).

  Both follow the arguments from left to right: what one option does to the draft is shown first,
  then what all of them do.
-/

import AccumulatorAsm.CommandLine.Options

namespace AccumulatorAsm.CommandLine

section Results

variable {ε ε' α β : Type} {x : Except ε α}

theorem exists_of_map_eq_ok {f : α → β} {b : β} (h : x.map f = .ok b) :
    ∃ a, x = .ok a ∧ f a = b := by
  cases x with
  | error fault => cases h
  | ok a => exact ⟨a, rfl, Except.ok.inj h⟩

theorem eq_ok_of_mapError {f : ε → ε'} {a : α} (h : x.mapError f = .ok a) : x = .ok a := by
  cases x with
  | error fault => cases h
  | ok a' => exact congrArg Except.ok (Except.ok.inj h)

end Results

/-! ## Verbosity -/

def Draft.verbosely (d : Draft) : Draft :=
  { d with verbose := true }

def Options.verbosely (o : Options) : Options :=
  { o with verbose := true }

namespace Draft

variable (d : Draft)

theorem setLength_verbosely (value : Value String) :
    d.verbosely.setLength value = (d.setLength value).map verbosely := by
  cases value with
  | none => rfl
  | some text =>
    unfold setLength
    dsimp only
    cases readLength text with
    | error fault => rfl
    | ok n => rfl

theorem setFormat_verbosely (value : Value String) :
    d.verbosely.setFormat value = (d.setFormat value).map verbosely := by
  cases value with
  | none => rfl
  | some text =>
    unfold setFormat
    dsimp only
    cases readFormat text with
    | error fault => rfl
    | ok format => rfl

theorem set_verbosely (flag : Flag) (value : Value String) :
    d.verbosely.set flag value = (d.set flag value).map verbosely := by
  cases flag with
  | help | source | dest | verbose => rfl
  | length =>
    unfold set
    dsimp only
    rw [setLength_verbosely]
    cases d.setLength value with
    | error fault => rfl
    | ok d' => rfl
  | format =>
    unfold set
    dsimp only
    rw [setFormat_verbosely]
    cases d.setFormat value with
    | error fault => rfl
    | ok d' => rfl

theorem setAll_verbosely (values : List (Flag × Value String)) :
    d.verbosely.setAll values = (d.setAll values).map verbosely := by
  induction values generalizing d with
  | nil => rfl
  | cons option values ih =>
    obtain ⟨flag, value⟩ := option
    rw [setAll, setAll, set_verbosely]
    cases d.set flag value with
    | error refusal => rfl
    | ok d' => exact ih d'

theorem apply_verbosely (s : Settings) (next : Option String) :
    d.verbosely.apply s next = (d.apply s next).map verbosely := by
  have hextra : s.leftover.elim d.verbosely d.verbosely.addExtra =
      (s.leftover.elim d d.addExtra).verbosely := by
    cases s.leftover with
    | none => rfl
    | some text => rfl
  unfold apply
  rw [hextra]
  cases s.awaits with
  | none => exact setAll_verbosely _ _
  | some flag =>
    cases next with
    | none => rfl
    | some text => exact setAll_verbosely _ _

theorem addAll_verbosely (arguments : List Argument) :
    d.verbosely.addAll arguments = (d.addAll arguments).map verbosely := by
  fun_induction d.addAll arguments with
  | case1 d => rfl
  | case2 d a rest fault hs => simp only [addAll, hs, Except.map]
  | case3 d a rest s hs refusal hd => simp only [addAll, hs, apply_verbosely, hd, Except.map]
  | case4 d a s hs d' flag next rest hawaits hd ih =>
    -- the next argument is the value of this one
    rw [← ih]
    simp only [addAll, hs, apply_verbosely, hd, Except.map, hawaits]
  | case5 d a s hs d' rest hfree hd ih =>
    rw [← ih]
    simp only [addAll, hs, apply_verbosely, hd, Except.map]

theorem finish_verbosely : d.verbosely.finish = d.finish.map Options.verbosely := by
  have hsource : d.verbosely.source = d.source := rfl
  have hextras : d.verbosely.extras = d.extras := rfl
  unfold finish
  rw [hsource, hextras]
  cases d.source with
  | none => rfl
  | some source =>
    dsimp only
    by_cases hnone : d.extras = []
    · rw [if_pos hnone, if_pos hnone]
      rfl
    · rw [if_neg hnone, if_neg hnone]
      rfl

end Draft

/-- `-v` in front of arguments asks for the same, verbosely. -/
theorem Options.parse_cons_verbose (args : List String) :
    parse ("-v" :: args) = (parse args).map verbosely := by
  have hread : Argument.readAll ("-v" :: args) =
      (Argument.readAll args).map (.letter .verbose [] :: ·) := rfl
  unfold parse
  rw [hread]
  cases Argument.readAll args with
  | error fault => rfl
  | ok arguments =>
    have hall : Draft.addAll {} (.letter .verbose [] :: arguments) =
        (Draft.addAll {} arguments).map Draft.verbosely :=
      Draft.addAll_verbosely {} arguments
    simp only [Except.map, hall]
    cases Draft.addAll {} arguments with
    | error refusal => rfl
    | ok d => exact d.finish_verbosely

/-! ## Lengths -/

/-- A length, if there is one, is positive. -/
def Draft.Sized (d : Draft) : Prop :=
  ∀ n, d.length = some n → 0 < n

namespace Draft

theorem pos_of_readLength {text : String} {n : Int} (h : readLength text = .ok n) : 0 < n := by
  unfold readLength at h
  split at h
  · cases h
  · split at h
    · cases h
    · obtain rfl := Except.ok.inj h
      omega

variable {d d' : Draft}

theorem Sized.setLength {value : Value String} (h : d.setLength value = .ok d') : d'.Sized := by
  cases value with
  | none =>
    obtain rfl := Except.ok.inj h
    exact nofun
  | some text =>
    obtain ⟨n, hn, rfl⟩ := exists_of_map_eq_ok h
    intro n' hn'
    obtain rfl := Option.some.inj hn'
    exact pos_of_readLength hn

theorem Sized.setFormat (hd : d.Sized) {value : Value String} (h : d.setFormat value = .ok d') :
    d'.Sized := by
  cases value with
  | none =>
    obtain rfl := Except.ok.inj h
    exact hd
  | some text =>
    obtain ⟨format, -, rfl⟩ := exists_of_map_eq_ok h
    exact hd

theorem Sized.set (hd : d.Sized) {flag : Flag} {value : Value String}
    (h : d.set flag value = .ok d') : d'.Sized := by
  cases flag with
  | help => cases h
  | source | dest | verbose =>
    obtain rfl := Except.ok.inj h
    exact hd
  | length => exact .setLength (eq_ok_of_mapError h)
  | format => exact hd.setFormat (eq_ok_of_mapError h)

theorem Sized.setAll (hd : d.Sized) {values : List (Flag × Value String)}
    (h : d.setAll values = .ok d') : d'.Sized := by
  induction values generalizing d with
  | nil =>
    obtain rfl := Except.ok.inj h
    exact hd
  | cons option values ih =>
    obtain ⟨flag, value⟩ := option
    rw [Draft.setAll] at h
    split at h
    · next d'' hset => exact ih (hd.set hset) h
    · cases h

theorem Sized.apply (hd : d.Sized) {s : Settings} {next : Option String}
    (h : d.apply s next = .ok d') : d'.Sized := by
  have hextra : (s.leftover.elim d d.addExtra).Sized := by
    cases s.leftover with
    | none => exact hd
    | some text => exact hd
  unfold Draft.apply at h
  split at h
  · exact hextra.setAll h
  · exact hextra.setAll h
  · cases h

theorem Sized.addAll {arguments : List Argument} (hd : d.Sized)
    (h : d.addAll arguments = .ok d') : d'.Sized := by
  fun_induction d.addAll arguments with
  | case1 d =>
    obtain rfl := Except.ok.inj h
    exact hd
  | case2 d a rest fault hs => cases h
  | case3 d a rest s hs refusal happly => cases h
  | case4 d a s hs d'' flag next rest hawaits happly ih => exact ih (hd.apply happly) h
  | case5 d a s hs d'' rest hfree happly ih => exact ih (hd.apply happly) h

theorem sized_initial : Sized {} := by
  intro n hn
  obtain rfl := Option.some.inj hn
  decide

end Draft

/-- An accepted length is positive. -/
theorem Options.pos_of_parse {args : List String} {o : Options} (h : parse args = .ok o) {n : Int}
    (hn : o.length = some n) : 0 < n := by
  unfold parse at h
  split at h
  · cases h
  split at h
  · cases h
  next d hd =>
  have hsized : d.Sized := Draft.sized_initial.addAll hd
  unfold Draft.finish at h
  split at h
  · cases h
  split at h
  · obtain rfl := Except.ok.inj h
    exact hsized n hn
  · cases h

end AccumulatorAsm.CommandLine
