/-
  AccumulatorAsm.Proofs.Text.Trim

  What trimming leaves: a part of the text whose ends are no blanks, and the text itself if its
  ends are no blanks already.
-/

import Mathlib.Data.List.DropRight
import Mathlib.Data.List.Infix
import AccumulatorAsm.Text.Blank

namespace AccumulatorAsm.Text

/-! ## Parts -/

theorem trimStart_isSuffix (cs : List Char) : trimStart cs <:+ cs :=
  List.dropWhile_suffix _

theorem trimEnd_isPrefix (cs : List Char) : trimEnd cs <+: cs :=
  List.rdropWhile_prefix ..

theorem trim_isInfix (cs : List Char) : trim cs <:+: cs :=
  (trimEnd_isPrefix _).isInfix.trans (trimStart_isSuffix cs).isInfix

/-! ## Texts without blanks at their ends -/

theorem trimStart_eq_self_iff {cs : List Char} :
    trimStart cs = cs ↔ ∀ c, cs.head? = some c → isBlank c = false := by
  cases cs with
  | nil => simp
  | cons c cs =>
    by_cases h : isBlank c = true
    · -- a blank at the front is lost, and with it the length
      have hlength : (trimStart cs).length ≤ cs.length := (trimStart_isSuffix cs).length_le
      simp only [trimStart_cons_of_blank h, List.head?_cons, Option.some.injEq, forall_eq', h]
      refine ⟨fun heq => ?_, fun hfalse => nomatch hfalse⟩
      rw [heq, List.length_cons] at hlength
      omega
    · simp [trimStart_cons_of_not_blank, h]

theorem trimEnd_eq_self_iff {cs : List Char} :
    trimEnd cs = cs ↔ ∀ c, cs.getLast? = some c → isBlank c = false := by
  -- the end of a text is the front of the reversed one
  have hreverse : trimEnd cs = cs ↔ trimStart cs.reverse = cs.reverse := by
    unfold trimEnd trimStart
    rw [List.reverse_eq_iff]
  rw [hreverse, trimStart_eq_self_iff, List.head?_reverse]

theorem trim_eq_self_iff {cs : List Char} :
    trim cs = cs ↔ trimStart cs = cs ∧ trimEnd cs = cs := by
  constructor
  · intro h
    -- a suffix as long as the text is the text
    have hstart : trimStart cs = cs := by
      refine (trimStart_isSuffix cs).eq_of_length_le ?_
      conv_lhs => rw [← h]
      exact (trimEnd_isPrefix _).length_le
    exact ⟨hstart, by rwa [trim, hstart] at h⟩
  · rintro ⟨hstart, hend⟩
    rw [trim, hstart, hend]

theorem trim_eq_self_of_not_blank {cs : List Char} (h : ∀ c ∈ cs, isBlank c = false) :
    trim cs = cs := by
  rw [trim_eq_self_iff, trimStart_eq_self_iff, trimEnd_eq_self_iff]
  exact ⟨fun c hc => h c (List.mem_of_mem_head? hc), fun c hc => h c (List.mem_of_mem_getLast? hc)⟩

theorem isBlank_of_head?_trimStart {cs : List Char} {c : Char}
    (h : (trimStart cs).head? = some c) : isBlank c = false := by
  have hhead := List.head?_dropWhile_not isBlank cs
  unfold trimStart at h
  rw [h] at hhead
  exact hhead

@[simp] theorem trimEnd_trimEnd (cs : List Char) : trimEnd (trimEnd cs) = trimEnd cs :=
  List.rdropWhile_idempotent ..

/-- Trimming is done once for all. -/
@[simp] theorem trim_trim (cs : List Char) : trim (trim cs) = trim cs := by
  refine trim_eq_self_iff.mpr ⟨trimStart_eq_self_iff.mpr fun c hc => ?_, trimEnd_trimEnd _⟩
  -- the first character is still that of the text without its leading blanks
  obtain ⟨rest, hrest⟩ := trimEnd_isPrefix (trimStart cs)
  have hhead : (trimStart cs).head? = some c := by
    rw [← hrest, List.head?_append]
    exact Option.or_eq_some_iff.mpr (.inl hc)
  exact isBlank_of_head?_trimStart hhead

/-- Only a text of blanks is trimmed away. -/
theorem trim_eq_nil_iff {cs : List Char} : trim cs = [] ↔ ∀ c ∈ cs, isBlank c = true := by
  constructor
  · intro h
    have hstart : trimStart cs = [] := by
      by_contra hne
      -- a first character that is left is both a blank and none
      have hblank := List.rdropWhile_eq_nil_iff.mp h _ (List.head_mem hne)
      rw [isBlank_of_head?_trimStart (List.head?_eq_some_head hne)] at hblank
      cases hblank
    exact List.dropWhile_eq_nil_iff.mp hstart
  · intro h
    rw [trim, trimStart, List.dropWhile_eq_nil_iff.mpr h, trimEnd_nil]

theorem trim_toList_of_trimmed {text : String} (h : trimmed text = text) :
    trim text.toList = text.toList := by
  have htoList := congrArg String.toList h
  rwa [trimmed, String.toList_ofList] at htoList

/-- A text between two marks that are no blanks has no blanks at its ends. -/
theorem trim_between {left right : Char} (hl : isBlank left = false)
    (hr : isBlank right = false) (cs : List Char) :
    trim (left :: (cs ++ [right])) = left :: (cs ++ [right]) := by
  rw [trim_eq_self_iff, ← List.cons_append]
  exact ⟨trimStart_cons_of_not_blank hl, trimEnd_append_of_not_blank hr⟩

/-! ## Texts put together -/

theorem trimStart_append_of_eq_self {cs : List Char} (h : trimStart cs = cs) (hne : cs ≠ [])
    (ds : List Char) : trimStart (cs ++ ds) = cs ++ ds := by
  rw [trimStart_eq_self_iff] at h ⊢
  rwa [List.head?_append_of_ne_nil _ hne]

/-- The blanks at the end are those of the second text, and all of it if it is blank. -/
theorem trimEnd_append (cs ds : List Char) :
    trimEnd (cs ++ ds) = if trimEnd ds = [] then trimEnd cs else cs ++ trimEnd ds := by
  induction ds using List.reverseRecOn with
  | nil => simp
  | append_singleton ds d ih =>
    rw [← List.append_assoc]
    cases hd : isBlank d with
    | true => rw [trimEnd_append_of_blank hd, trimEnd_append_of_blank hd, ih]
    | false =>
      rw [trimEnd_append_of_not_blank hd, trimEnd_append_of_not_blank hd]
      simp

theorem trimEnd_append_of_eq_self {ds : List Char} (h : trimEnd ds = ds) (hne : ds ≠ [])
    (cs : List Char) : trimEnd (cs ++ ds) = cs ++ ds := by
  rw [trimEnd_append, h, if_neg hne]

/-- It does not matter which end is trimmed first. -/
theorem trimStart_trimEnd (cs : List Char) : trimStart (trimEnd cs) = trim cs := by
  induction cs with
  | nil => rfl
  | cons c cs ih =>
    rw [← List.singleton_append, trimEnd_append]
    cases hc : isBlank c with
    | true =>
      have hsingle : trimEnd [c] = [] := by
        rw [← List.nil_append [c], trimEnd_append_of_blank hc, trimEnd_nil]
      -- the blank is gone after either order, and the rest is the induction hypothesis
      rw [List.singleton_append, List.singleton_append, trim_cons_of_blank hc, ← ih, hsingle]
      split
      · next hnil => rw [hnil]
      · exact trimStart_cons_of_blank hc
    | false =>
      have hsingle : trimEnd [c] = [c] := by
        rw [← List.nil_append [c], trimEnd_append_of_not_blank hc]
      -- nothing is trimmed at the front
      have htrim : trim ([c] ++ cs) = trimEnd ([c] ++ cs) :=
        congrArg trimEnd (trimStart_cons_of_not_blank hc)
      rw [htrim, trimEnd_append, hsingle]
      split <;> exact trimStart_cons_of_not_blank hc

/-- A text is what trimming leaves of it between two texts of blanks. -/
theorem exists_append_trim_append (cs : List Char) :
    ∃ front back, cs = front ++ (trim cs ++ back) ∧ (∀ c ∈ front, isBlank c = true) ∧
      ∀ c ∈ back, isBlank c = true := by
  have hstart : cs.takeWhile isBlank ++ trimStart cs = cs := List.takeWhile_append_dropWhile
  obtain ⟨back, hback⟩ := trimEnd_isPrefix (trimStart cs)
  refine ⟨cs.takeWhile isBlank, back, ?_, fun c hc => List.mem_takeWhile_imp hc, ?_⟩
  · rw [trim, hback, hstart]
  · -- otherwise trimming would have left more
    have hend : trimEnd (trim cs ++ back) = trim cs := by rw [trim, hback]
    rw [trimEnd_append] at hend
    split at hend
    · next hnil => exact List.rdropWhile_eq_nil_iff.mp hnil
    · next hne => exact absurd (List.append_right_eq_self.mp hend) hne

theorem trim_append_of_blank {front back : List Char} (hfront : ∀ c ∈ front, isBlank c = true)
    (hback : ∀ c ∈ back, isBlank c = true) (cs : List Char) :
    trim (front ++ (cs ++ back)) = trim cs := by
  have hnil : trimEnd back = [] := List.rdropWhile_eq_nil_iff.mpr hback
  have hstart : trimStart (front ++ (cs ++ back)) = trimStart (cs ++ back) :=
    List.dropWhile_append_of_pos hfront
  rw [trim, hstart, ← trim, ← trimStart_trimEnd, trimEnd_append, if_pos hnil, trimStart_trimEnd]

theorem head?_trim_cons {c : Char} (h : isBlank c = false) (cs : List Char) :
    (trim (c :: cs)).head? = some c := by
  have hsingle : trimEnd ([] ++ [c]) = [] ++ [c] := trimEnd_append_of_not_blank h
  rw [List.nil_append] at hsingle
  rw [trim, trimStart_cons_of_not_blank h, ← List.singleton_append, trimEnd_append, hsingle]
  split <;> rfl

theorem getLast?_trim_concat {c : Char} (h : isBlank c = false) (cs : List Char) :
    (trim (cs ++ [c])).getLast? = some c := by
  have hne : trim (cs ++ [c]) ≠ [] := by
    intro hnil
    have hblank := trim_eq_nil_iff.mp hnil c (List.mem_append_right cs List.mem_cons_self)
    rw [h] at hblank
    cases hblank
  -- what is left is an end of the text
  rw [← trimStart_trimEnd, trimEnd_append_of_not_blank h] at hne ⊢
  obtain ⟨front, hfront⟩ := trimStart_isSuffix (cs ++ [c])
  rw [← List.getLast?_append_of_ne_nil front hne, hfront, List.getLast?_concat]

@[simp] theorem trim_trimEnd (cs : List Char) : trim (trimEnd cs) = trim cs := by
  rw [trim, trimStart_trimEnd, trim, trimEnd_trimEnd]

end AccumulatorAsm.Text
