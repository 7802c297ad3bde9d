import NtpQuery.Proofs.Text.Utf8
import NtpQuery.Text.Numeral

/-!
# Lines

What is put together from texts without a line end has none either, if
none is put between them. Numbers have none.

Lines with line ends between them can be told apart again
(`splitOn_lines`), and with blanks for the line ends they are the same
lines with blanks between them (`map_unbroken_lines`).
-/

namespace NtpQuery.Text

/-- **A text without a line end.** -/
def OneLine (s : String) : Prop :=
  '\n' ∉ s.toList

instance : DecidablePred OneLine := fun s =>
  inferInstanceAs (Decidable ('\n' ∉ s.toList))

@[simp] theorem oneLine_append {s t : String} :
    OneLine (s ++ t) ↔ OneLine s ∧ OneLine t := by
  unfold OneLine
  rw [String.toList_append, List.mem_append, not_or]

/-- Lines that are put together with a line between them are a line. -/
theorem oneLine_intercalate {sep : String} (hsep : OneLine sep) :
    ∀ {lines : List String}, (∀ s ∈ lines, OneLine s) →
      OneLine (sep.intercalate lines)
  | [], _ => by simp [OneLine]
  | [s], h => by simpa using h s List.mem_cons_self
  | s :: t :: lines, h => by
    rw [String.intercalate_cons_cons, oneLine_append, oneLine_append]
    exact ⟨⟨h s List.mem_cons_self, hsep⟩,
      oneLine_intercalate hsep fun u hu => h u (List.mem_cons_of_mem s hu)⟩

/-- One of several lines is a line, whichever it is. -/
theorem oneLine_getD {lines : List String} {other : String}
    (h : ∀ s ∈ other :: lines, OneLine s) (i : Nat) :
    OneLine (lines.getD i other) := by
  rw [List.getD_eq_getElem?_getD]
  cases hi : lines[i]? with
  | none => exact h other List.mem_cons_self
  | some s => exact h s (List.mem_cons_of_mem _ (List.mem_of_getElem? hi))

/-- A digit is no line end. -/
theorem digitChar_ne_newline (d : Nat) : digitChar d ≠ '\n' := by
  intro h
  unfold digitChar at h
  split at h
  next => exact absurd (eq_of_ofNat_eq_newline h) (by omega)
  next => exact absurd (eq_of_ofNat_eq_newline h) (by omega)

/-- There is no line end among digits. -/
theorem newline_not_mem_digits (base n : Nat) : '\n' ∉ digits base n := by
  induction n using digits.induct base with
  | case1 n h =>
    rw [digits, dif_pos h, List.mem_singleton]
    exact (digitChar_ne_newline n).symm
  | case2 n h ih =>
    rw [digits, dif_neg h, List.mem_append, List.mem_singleton, not_or]
    exact ⟨ih, (digitChar_ne_newline _).symm⟩

theorem oneLine_decimal (n : Nat) : OneLine (decimal n) := by
  unfold OneLine decimal
  rw [String.toList_ofList]
  exact newline_not_mem_digits 10 n

theorem oneLine_hexadecimal (width n : Nat) :
    OneLine (hexadecimal width n) := by
  unfold OneLine hexadecimal
  rw [String.toList_ofList, List.mem_append, List.mem_replicate]
  rintro (⟨-, h⟩ | h)
  · exact absurd h (by decide)
  · exact newline_not_mem_digits 16 n h

/-! ## Lines below each other -/

/-- A character, or a blank for a line end. -/
def unbroken (c : Char) : Char :=
  if c = '\n' then ' ' else c

theorem map_unbroken {s : String} (h : OneLine s) :
    s.toList.map unbroken = s.toList := by
  have hsame : ∀ c ∈ s.toList, unbroken c = id c := fun c hc =>
    if_neg (ne_of_mem_of_not_mem hc h)
  rw [List.map_congr_left hsame, List.map_id]

/-- **With blanks for the line ends**, lines stand behind each other with
a blank between them. -/
theorem map_unbroken_lines :
    ∀ {lines : List String}, (∀ s ∈ lines, OneLine s) →
      ("\n".intercalate lines).toList.map unbroken
        = (" ".intercalate lines).toList
  | [], _ => rfl
  | [s], h => by simpa using map_unbroken (h s List.mem_cons_self)
  | s :: t :: lines, h => by
    have ih : ("\n".intercalate (t :: lines)).toList.map unbroken = _ :=
      map_unbroken_lines fun u hu => h u (List.mem_cons_of_mem s hu)
    simp only [String.intercalate_cons_cons, String.toList_append,
      List.map_append, map_unbroken (h s List.mem_cons_self), ih]
    rfl

/-- **Lines with line ends between them** can be told apart. -/
theorem splitOn_lines {lines : List String} (hne : lines ≠ [])
    (h : ∀ s ∈ lines, OneLine s) :
    ("\n".intercalate lines).toList.splitOn '\n'
      = lines.map String.toList := by
  rw [String.toList_intercalate]
  exact List.splitOn_intercalate '\n' (List.forall_mem_map.mpr h)
    (mt List.map_eq_nil_iff.mp hne)

/-- Where no line is empty, the last character is one of a line. -/
theorem getLast?_lines :
    ∀ {lines : List String}, lines ≠ [] → (∀ s ∈ lines, s ≠ "") →
      ∃ s ∈ lines, ∃ c ∈ s.toList,
        ("\n".intercalate lines).toList.getLast? = some c
  | [], hne, _ => absurd rfl hne
  | [s], _, h => by
    have hs : s.toList ≠ [] := mt String.toList_eq_nil_iff.mp
      (h s List.mem_cons_self)
    refine ⟨s, List.mem_cons_self, _, List.getLast_mem hs, ?_⟩
    rw [String.intercalate_singleton, List.getLast?_eq_some_getLast hs]
  | s :: t :: lines, _, h => by
    obtain ⟨u, hu, c, hc, hlast⟩ := getLast?_lines
      (List.cons_ne_nil t lines) fun u hu => h u (List.mem_cons_of_mem s hu)
    refine ⟨u, List.mem_cons_of_mem s hu, c, hc, ?_⟩
    rw [String.intercalate_cons_cons, String.toList_append,
      List.getLast?_append, hlast, Option.some_or]

end NtpQuery.Text
