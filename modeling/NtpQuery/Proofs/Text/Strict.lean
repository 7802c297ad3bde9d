import NtpQuery.Proofs.Text.Lenient
import NtpQuery.Proofs.Text.Trim

/-!
# Strict reading, line by line

A line end is a byte that is part of no longer character. So the lines of a
text can be found among its bytes before any of them is read
(`splitOn_encode`), and what is read of a line is that line
(`decode?_encode`). A carriage return in front of a line end is white, and
whether it is taken off before the line is read makes no difference once
the line is trimmed (`decode?_append_return`).

The trimmed lines of a text are what stands on its lines. White space that
is put around a text stands on no line, not even if it has line ends of its
own (`trimmedLines_padded`).
-/

namespace NtpQuery.Text

/-! ## Reading -/

/-- **The bytes of a text are that text.** -/
theorem decode?_encode (s : List Char) : decode? (encode s) = some s := by
  unfold decode?
  rw [pieces_encode, List.mapM_map]
  induction s with
  | nil => rfl
  | cons c s ih =>
    rw [List.mapM_cons, ih]
    rfl

/-- A carriage return stands for itself, whatever stands in front of it. -/
theorem decode?_append_return (bytes : Bytes) :
    decode? (bytes ++ [13]) = (decode? bytes).map (· ++ ['\r']) := by
  have hreturn : pieces [13] = [some '\r'] := pieces_encode ['\r']
  have hstart : ∀ b ∈ ([13] : Bytes).head?, isContinuation b = false :=
    fun b hb => Option.some.inj hb ▸ rfl
  unfold decode?
  rw [pieces_append hstart, hreturn, List.mapM_append]
  cases (pieces bytes).mapM id <;> rfl

/-- A text without a line end has none among its bytes. -/
theorem newline_not_mem_encode {s : List Char} (h : '\n' ∉ s) :
    (10 : UInt8) ∉ encode s := by
  intro hmem
  obtain ⟨c, hc, hbyte⟩ := List.mem_flatMap.mp hmem
  obtain rfl := eq_ofNat_of_mem_encodeChar (by decide) hbyte
  exact h hc

/-! ## Lines -/

/-- **Line by line**: what holds of every line, and stays true when a line
is put in front, holds of all that a line end divides into lines. -/
theorem lines_induction {α : Type} [DecidableEq α] (stop : α)
    {motive : List α → Prop} (last : ∀ line, stop ∉ line → motive line)
    (cons : ∀ line rest, stop ∉ line → motive rest →
      motive (line ++ stop :: rest)) (s : List α) : motive s := by
  by_cases h : stop ∈ s
  · obtain ⟨line, rest, rfl, hline⟩ := List.eq_append_cons_of_mem h
    exact cons line rest hline (lines_induction stop last cons rest)
  · exact last s h
termination_by s.length

/-- **The lines of the bytes** of a text are the bytes of its lines. -/
theorem splitOn_encode (s : List Char) :
    (encode s).splitOn 10 = (s.splitOn '\n').map encode := by
  induction s using lines_induction '\n' with
  | last line h =>
    rw [List.splitOn_eq_singleton h,
      List.splitOn_eq_singleton (newline_not_mem_encode h)]
    rfl
  | cons line rest h ih =>
    have hbytes : encode (line ++ '\n' :: rest)
        = encode line ++ 10 :: encode rest := encode_append line _
    rw [hbytes, List.splitOn_append_cons_self_of_not_mem h,
      List.splitOn_append_cons_self_of_not_mem (newline_not_mem_encode h),
      ih]
    rfl

/-- **What stands on the lines of a text**: those that are not blank, each
without the white space at its ends. -/
def trimmedLines (s : List Char) : List (List Char) :=
  ((s.splitOn '\n').map trim).filter (· ≠ [])

/-- The lines in front of a line end come first. -/
theorem trimmedLines_append_newline (s t : List Char) :
    trimmedLines (s ++ '\n' :: t) = trimmedLines s ++ trimmedLines t := by
  unfold trimmedLines
  rw [List.splitOn_append_cons_self, List.map_append, List.filter_append]

theorem trimmedLines_of_line {line : List Char} (h : '\n' ∉ line) :
    trimmedLines line = [trim line].filter (· ≠ []) := by
  unfold trimmedLines
  rw [List.splitOn_eq_singleton h]
  rfl

/-- White space in front stands on no line. -/
theorem trimmedLines_white_append {white : List Char}
    (h : ∀ c ∈ white, isWhite c = true) (s : List Char) :
    trimmedLines (white ++ s) = trimmedLines s := by
  induction white using lines_induction '\n' with
  | cons line rest hline ih =>
    have hwhite := List.forall_mem_append.mp h
    have hblank : trim line = [] := trim_append_white [] hwhite.1
    rw [List.append_assoc, List.cons_append, trimmedLines_append_newline,
      trimmedLines_of_line hline, hblank,
      ih fun c hc => hwhite.2 c (List.mem_cons_of_mem _ hc)]
    rfl
  | last near hnear =>
    -- it stands in front of the first line of the text, and is trimmed
    have hfirst : ∀ line : List Char, '\n' ∉ line →
        trimmedLines (near ++ line) = trimmedLines line := by
      intro line hline
      have hone : '\n' ∉ near ++ line := by
        rw [List.mem_append, not_or]
        exact ⟨hnear, hline⟩
      rw [trimmedLines_of_line hone, trimmedLines_of_line hline,
        trim_white_append h]
    induction s using lines_induction '\n' with
    | last line hline => exact hfirst line hline
    | cons line rest hline =>
      rw [← List.append_assoc, trimmedLines_append_newline, hfirst line hline,
        ← trimmedLines_append_newline]

/-- **White space around a line** does not change what stands on it. -/
theorem trimmedLines_padded {line front back : List Char}
    (hline : '\n' ∉ line) (hne : trim line ≠ [])
    (hfront : ∀ c ∈ front, isWhite c = true)
    (hback : ∀ c ∈ back, isWhite c = true) :
    trimmedLines (front ++ (line ++ back)) = [trim line] := by
  have hline' : ∀ after : List Char, '\n' ∉ after →
      (∀ c ∈ after, isWhite c = true) →
      trimmedLines (line ++ after) = [trim line] := by
    intro after hafter hwhite
    have hone : '\n' ∉ line ++ after := by
      rw [List.mem_append, not_or]
      exact ⟨hline, hafter⟩
    rw [trimmedLines_of_line hone, trim_append_white line hwhite]
    exact List.filter_cons_of_pos (decide_eq_true hne)
  rw [trimmedLines_white_append hfront]
  induction back using lines_induction '\n' with
  | last after hafter => exact hline' after hafter hback
  | cons after rest hafter =>
    have hwhite := List.forall_mem_append.mp hback
    have hrest : trimmedLines (rest ++ []) = trimmedLines [] :=
      trimmedLines_white_append
        (fun c hc => hwhite.2 c (List.mem_cons_of_mem _ hc)) []
    rw [List.append_nil] at hrest
    rw [← List.append_assoc, trimmedLines_append_newline,
      hline' after hafter hwhite.1, hrest]
    rfl

end NtpQuery.Text
