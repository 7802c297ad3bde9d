import NtpQuery.Failure
import NtpQuery.Proofs.Text.Boundary

/-!
# Texts of failures

What is remembered of a failure is its number and the front of its text.
The front is the longest that has at most 128 bytes and ends with a
character, however long the words that the text quotes are and whatever
stands in them (`ErrorRecord.ofFailure_longest`). On the bytes, it is what
is left when they are cut at 128 bytes, or as few before as it takes to
split no character.
-/

namespace NtpQuery

open Text

/-- **The operating system's number for a failure**, where it has one. -/
inductive Failure.HasErrno : Failure → Int → Prop where
  /-- What is to be made exists already. -/
  | alreadyThere : HasErrno .alreadyOpen 17
  /-- There is no memory. -/
  | noMemory (requested : Nat) : HasErrno (.outOfMemory requested) 12
  /-- The network failed with a number. -/
  | network (keyword : String) (errno : Int) :
    HasErrno (.commandFailed keyword (.net (.os errno))) errno

namespace Failure

/-- A failure goes by the number that it has. -/
theorem HasErrno.code_eq {f : Failure} {n : Int} (h : f.HasErrno n) :
    f.code = n := by
  cases h <;> rfl

/-- Without one, it goes by -1. -/
theorem code_of_no_errno {f : Failure} (h : ∀ n, ¬ f.HasErrno n) :
    f.code = -1 := by
  cases f with
  | alreadyOpen => exact absurd .alreadyThere (h 17)
  | outOfMemory requested => exact absurd (.noMemory requested) (h 12)
  | commandFailed keyword cause =>
    cases cause with
    | net error =>
      cases error with
      | os n => exact absurd (.network keyword n) (h n)
      | _ => rfl
    | _ => rfl
  | _ => rfl

end Failure

namespace ErrorRecord

/-! ## The longest front part -/

theorem cutBytes_isPrefix (limit : Nat) (s : List Char) :
    cutBytes limit s <+: s := by
  fun_induction cutBytes limit s with
  | case1 => exact List.prefix_rfl
  | case2 limit c rest hc ih => exact List.cons_prefix_cons.mpr ⟨rfl, ih⟩
  | case3 => exact List.nil_prefix

theorem length_encode_cutBytes_le (limit : Nat) (s : List Char) :
    (encode (cutBytes limit s)).length ≤ limit := by
  fun_induction cutBytes limit s with
  | case1 => exact Nat.zero_le _
  | case2 limit c rest hc ih =>
    rw [length_encode_cons]
    omega
  | case3 => exact Nat.zero_le _

/-- **No longer front part fits.** -/
theorem isPrefix_cutBytes {limit : Nat} {s p : List Char} (hp : p <+: s)
    (hlen : (encode p).length ≤ limit) : p <+: cutBytes limit s := by
  fun_induction cutBytes limit s generalizing p with
  | case1 => exact hp
  | case2 limit c rest hc ih =>
    rcases List.prefix_cons_iff.mp hp with rfl | ⟨p, rfl, hrest⟩
    · exact List.nil_prefix
    · rw [length_encode_cons] at hlen
      exact List.cons_prefix_cons.mpr ⟨rfl, ih hrest (by omega)⟩
  | case3 limit c rest hc =>
    rcases List.prefix_cons_iff.mp hp with rfl | ⟨p, rfl, hrest⟩
    · exact List.nil_prefix
    · rw [length_encode_cons] at hlen
      omega

/-- **Cutting a text is cutting its bytes** and stepping back to the end of
a character. -/
theorem encode_cutBytes (limit : Nat) (s : List Char) :
    encode (cutBytes limit s) = cutBack limit (encode s) := by
  obtain ⟨rest, hrest⟩ := cutBytes_isPrefix limit s
  unfold cutBack
  split
  next hle =>
    have hall := isPrefix_cutBytes List.prefix_rfl hle
    rw [(cutBytes_isPrefix limit s).eq_of_length_le hall.length_le]
  next hgt =>
    obtain ⟨⟨hle, hcut⟩, hgreatest⟩ := stepBack_isGreatest (encode s) limit
    have hplace : stepBack (encode s) limit
        = (encode (cutBytes limit s)).length := by
      refine Nat.le_antisymm ?_ (hgreatest
        ⟨length_encode_cutBytes_le limit s, isBoundary_encode_iff.mpr
          ⟨_, cutBytes_isPrefix limit s, rfl⟩⟩)
      obtain ⟨p, hp, hlen⟩ := isBoundary_encode_iff.mp hcut
      obtain ⟨more, hmore⟩ := isPrefix_cutBytes hp (hlen ▸ hle)
      rw [← hlen, ← hmore, encode_append, List.length_append]
      exact Nat.le_add_right _ _
    rw [hplace]
    calc encode (cutBytes limit s)
        = (encode (cutBytes limit s) ++ encode rest).take
            (encode (cutBytes limit s)).length := (List.take_left' rfl).symm
      _ = (encode s).take (encode (cutBytes limit s)).length := by
        rw [← encode_append, hrest]

example : cutBytes 4 "aé€".toList = "aé".toList := by decide

/-! ## The text of a failure -/

/-- What a number of the operating system adds to a text. -/
def errnoSuffix (n : Int) : String :=
  ": " ++ signedDecimal n ++ ": " ++ errnoText n

/-- A number of the operating system is told exactly if it is positive. -/
theorem fullText_iff (f : Failure) :
    (fullText f = "ntpq: " ++ f.message ++ errnoSuffix f.code ↔ 0 < f.code)
      ∧ (fullText f = "ntpq: " ++ f.message ↔ ¬ 0 < f.code) := by
  have hne : "ntpq: " ++ f.message ++ errnoSuffix f.code
      ≠ "ntpq: " ++ f.message := by
    simp [errnoSuffix]
  by_cases h : 0 < f.code
  · have hfull : fullText f = "ntpq: " ++ f.message ++ errnoSuffix f.code :=
      congrArg _ (if_pos h)
    rw [hfull]
    exact ⟨iff_of_true rfl h, iff_of_false hne (not_not_intro h)⟩
  · have hfull : fullText f = "ntpq: " ++ f.message :=
      (congrArg _ (if_neg h)).trans String.append_empty
    rw [hfull]
    exact ⟨iff_of_false hne.symm h, iff_of_true rfl h⟩

/-- Every text starts with the name of the program. -/
theorem isPrefix_fullText (f : Failure) :
    "ntpq: ".toList <+: (fullText f).toList := by
  unfold fullText
  rw [String.append_assoc, String.toList_append]
  exact List.prefix_append _ _

/-- **What is remembered of a failure.** Its number is the operating
system's, where that has one for it, and else -1. The whole text is the
message behind the name of the program, and the number with its description
stands behind it exactly if it is positive. Of the whole text, the longest
front part is kept that has at most 128 bytes, which is what cutting the
bytes and stepping back to the end of a character leaves. So the name of the
program is always kept. -/
theorem ofFailure_longest (f : Failure) :
    let full := fullText f
    let r := ofFailure f
    (∀ n, f.HasErrno n → r.code = n)
      ∧ ((∀ n, ¬ f.HasErrno n) → r.code = -1)
      ∧ (full = "ntpq: " ++ f.message ++ errnoSuffix r.code ↔ 0 < r.code)
      ∧ (full = "ntpq: " ++ f.message ↔ ¬ 0 < r.code)
      ∧ r.text.toList <+: full.toList
      ∧ (utf8 r.text).length ≤ maxBytes
      ∧ (∀ p, p <+: full.toList → (encode p).length ≤ maxBytes →
        p <+: r.text.toList)
      ∧ utf8 r.text = cutBack maxBytes (utf8 full)
      ∧ isBoundary (utf8 full) (utf8 r.text).length = true
      ∧ "ntpq: ".toList <+: r.text.toList := by
  intro full r
  have htext : r.text.toList = cutBytes maxBytes full.toList :=
    String.toList_ofList
  obtain ⟨hwith, hwithout⟩ := fullText_iff f
  have hutf8 : utf8 r.text = encode (cutBytes maxBytes full.toList) :=
    congrArg encode htext
  refine ⟨fun n h => h.code_eq, Failure.code_of_no_errno, hwith, hwithout,
    ?_, ?_, ?_, ?_, ?_, ?_⟩
  · rw [htext]
    exact cutBytes_isPrefix _ _
  · rw [hutf8]
    exact length_encode_cutBytes_le _ _
  · rw [htext]
    exact fun p hp hlen => isPrefix_cutBytes hp hlen
  · rw [hutf8, encode_cutBytes]
    rfl
  · rw [hutf8]
    exact isBoundary_encode_iff.mpr ⟨_, cutBytes_isPrefix _ _, rfl⟩
  · rw [htext]
    exact isPrefix_cutBytes (isPrefix_fullText f) (by decide)

end ErrorRecord

end NtpQuery
