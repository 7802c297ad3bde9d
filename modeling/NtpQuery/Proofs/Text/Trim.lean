import Mathlib.Data.List.TakeWhile
import NtpQuery.Text.White

/-!
# Text without white space at its ends

Trimming leaves a text that has no white space at its ends, and takes off
no more than it must: a text that had none before, with white space added
behind it, comes back as it was.

White space at the ends of a text is no part of its words either, so a
text and what trimming leaves of it have the same words (`words_trim`).
-/

namespace NtpQuery.Text

/-- **A text without white space at its ends.** -/
structure Trimmed (s : List Char) : Prop where
  /-- Its first character is not white. -/
  first : ∀ c ∈ s.head?, isWhite c = false
  /-- Neither is its last. -/
  last : ∀ c ∈ s.getLast?, isWhite c = false

/-- There is nothing to trim at a front that is not white. -/
theorem trimStart_of_head {s : List Char}
    (h : ∀ c ∈ s.head?, isWhite c = false) : trimStart s = s := by
  cases s with
  | nil => rfl
  | cons c s =>
    have hc : isWhite c = false := h c rfl
    rw [trimStart, List.dropWhile_cons, hc, if_neg Bool.false_ne_true]

/-- What trimming leaves starts with no white character. -/
theorem head_trimStart {s : List Char} :
    ∀ c ∈ (trimStart s).head?, isWhite c = false := by
  intro c hc
  have h := List.head?_dropWhile_not isWhite s
  rw [show (s.dropWhile isWhite).head? = some c from hc] at h
  exact h

theorem trimEnd_isPrefix (s : List Char) : trimEnd s <+: s := by
  have h := List.reverse_prefix.mpr (List.dropWhile_suffix isWhite (l := s.reverse))
  rwa [List.reverse_reverse] at h

/-- At the end, trimming leaves no white character. -/
theorem getLast_trimEnd {s : List Char} :
    ∀ c ∈ (trimEnd s).getLast?, isWhite c = false := by
  intro c hc
  have h := List.head?_dropWhile_not isWhite s.reverse
  rw [← List.getLast?_reverse,
    show ((s.reverse.dropWhile isWhite).reverse).getLast? = some c from hc] at h
  exact h

/-- White characters at the end are trimmed. -/
theorem trimEnd_append_white (s : List Char) {white : List Char}
    (h : ∀ c ∈ white, isWhite c = true) :
    trimEnd (s ++ white) = trimEnd s := by
  unfold trimEnd dropEndWhile
  rw [List.reverse_append, List.dropWhile_append_of_pos]
  exact fun c hc => h c (List.mem_reverse.mp hc)

/-- There is nothing to trim at an end that is not white. -/
theorem trimEnd_of_getLast {s : List Char}
    (h : ∀ c ∈ s.getLast?, isWhite c = false) : trimEnd s = s := by
  have hstart : trimStart s.reverse = s.reverse :=
    trimStart_of_head fun c hc => h c (by rwa [List.head?_reverse] at hc)
  exact (congrArg List.reverse hstart).trans (List.reverse_reverse s)

/-- **A trimmed text is trimmed.** -/
theorem trimmed_trim (s : List Char) : Trimmed (trim s) where
  first := by
    intro c hc
    obtain ⟨rest, hrest⟩ := trimEnd_isPrefix (trimStart s)
    refine head_trimStart (s := s) c ?_
    rw [← hrest, List.head?_append]
    exact (congrArg (·.or rest.head?) (Option.mem_def.mp hc)).trans rfl
  last := getLast_trimEnd

/-- What is left of a text whose front is not white stands at its
front. -/
theorem trim_isPrefix {s : List Char}
    (h : ∀ c ∈ s.head?, isWhite c = false) : trim s <+: s := by
  rw [trim, trimStart_of_head h]
  exact trimEnd_isPrefix s

theorem mem_of_mem_trim {s : List Char} {c : Char} (h : c ∈ trim s) :
    c ∈ s :=
  (List.dropWhile_suffix isWhite).subset
    ((trimEnd_isPrefix (trimStart s)).subset h)

/-- Only white space is trimmed to nothing. -/
theorem white_of_trim_eq_nil {s : List Char} (h : trim s = []) :
    ∀ c ∈ s, isWhite c = true := by
  have hend : ∀ c ∈ trimStart s, isWhite c = true := by
    intro c hc
    exact List.dropWhile_eq_nil_iff.mp (List.reverse_eq_nil_iff.mp h) c
      (List.mem_reverse.mpr hc)
  refine List.dropWhile_eq_nil_iff.mp ?_
  cases hs : s.dropWhile isWhite with
  | nil => rfl
  | cons d rest =>
    have hd : d ∈ (trimStart s).head? := by
      rw [trimStart, hs]
      rfl
    have hwhite := hend d (List.mem_of_mem_head? hd)
    exact absurd ((head_trimStart d hd).symm.trans hwhite)
      Bool.false_ne_true

/-- A trimmed text has nothing left to trim. -/
theorem Trimmed.trim_eq {s : List Char} (h : Trimmed s) : trim s = s := by
  rw [trim, trimStart_of_head h.first, trimEnd_of_getLast h.last]

/-! ## White space that is put around a text -/

/-- White space in front is trimmed. -/
theorem trim_white_append {white : List Char}
    (h : ∀ c ∈ white, isWhite c = true) (s : List Char) :
    trim (white ++ s) = trim s := by
  unfold trim trimStart
  rw [List.dropWhile_append_of_pos h]

/-- So is white space behind. -/
theorem trim_append_white (s : List Char) {white : List Char}
    (h : ∀ c ∈ white, isWhite c = true) : trim (s ++ white) = trim s := by
  unfold trim
  by_cases hs : ∀ c ∈ s, isWhite c = true
  · -- then nothing is left on either side
    have hnone : ∀ t : List Char, (∀ c ∈ t, isWhite c = true) →
        trimStart t = [] := fun t ht => List.dropWhile_eq_nil_iff.mpr ht
    rw [hnone s hs, hnone]
    exact fun c hc => (List.mem_append.mp hc).elim (hs c) (h c)
  · have hsome : (s.dropWhile isWhite).isEmpty = false := by
      rw [List.isEmpty_eq_false_iff, Ne, List.dropWhile_eq_nil_iff]
      exact hs
    have hstart : trimStart (s ++ white) = trimStart s ++ white := by
      unfold trimStart
      rw [List.dropWhile_append, hsome, if_neg Bool.false_ne_true]
    rw [hstart, trimEnd_append_white _ h]

/-- **Trimming takes off the white space that was added** behind a text
that has none at its ends. -/
theorem Trimmed.trim_append {s white : List Char} (h : Trimmed s)
    (hwhite : ∀ c ∈ white, isWhite c = true) : trim (s ++ white) = s :=
  (trim_append_white s hwhite).trans h.trim_eq

/-- Trimming takes off nothing but white space. -/
theorem exists_trim_append (s : List Char) :
    ∃ front back, (∀ c ∈ front, isWhite c = true)
      ∧ (∀ c ∈ back, isWhite c = true) ∧ s = front ++ (trim s ++ back) := by
  refine ⟨s.takeWhile isWhite,
    ((trimStart s).reverse.takeWhile isWhite).reverse,
    fun c hc => List.mem_takeWhile_imp hc,
    fun c hc => List.mem_takeWhile_imp (List.mem_reverse.mp hc), ?_⟩
  unfold trim trimEnd dropEndWhile
  rw [← List.reverse_append, List.takeWhile_append_dropWhile,
    List.reverse_reverse]
  exact List.takeWhile_append_dropWhile.symm

/-- White space in front adds no word. -/
theorem words_white_append {white : List Char}
    (h : ∀ c ∈ white, isWhite c = true) (s : List Char) :
    words (white ++ s) = words s := by
  induction white with
  | nil => rfl
  | cons c white ih =>
    rw [List.cons_append, words_cons_white (h c List.mem_cons_self)]
    exact ih fun d hd => h d (List.mem_cons_of_mem c hd)

/-- Nor does white space behind. -/
theorem words_append_white (s : List Char) {white : List Char}
    (h : ∀ c ∈ white, isWhite c = true) : words (s ++ white) = words s := by
  have hnone : words white = [] := by
    have hwords := words_white_append h []
    rwa [List.append_nil] at hwords
  -- a word ends where it ended before
  have hend : ∀ s : List Char,
      (s ++ white).head?.all isWhite = s.head?.all isWhite := by
    intro s
    cases s with
    | cons d s => rfl
    | nil =>
      cases white with
      | nil => rfl
      | cons d white => exact h d List.mem_cons_self
  induction s with
  | nil => exact hnone
  | cons c s ih => rw [List.cons_append, words, words, hend, ih]

/-- **A text has the words of what trimming leaves of it.** -/
theorem words_trim (s : List Char) : words (trim s) = words s := by
  obtain ⟨front, back, hfront, hback, heq⟩ := exists_trim_append s
  have hwords : words (front ++ (trim s ++ back)) = words (trim s) := by
    rw [words_white_append hfront, words_append_white _ hback]
  exact hwords.symm.trans (congrArg words heq.symm)

/-- A text that is not blank has words. -/
theorem words_ne_nil {s : List Char} (h : trim s ≠ []) : words s ≠ [] := by
  rw [← words_trim]
  cases htrim : trim s with
  | nil => exact absurd htrim h
  | cons c rest =>
    have hc : isWhite c = false := (trimmed_trim s).first c (htrim ▸ rfl)
    unfold words
    rw [hc, if_neg Bool.false_ne_true]
    split
    · exact List.cons_ne_nil _ _
    · split <;> exact List.cons_ne_nil _ _

end NtpQuery.Text
