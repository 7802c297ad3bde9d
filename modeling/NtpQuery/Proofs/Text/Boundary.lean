import Mathlib.Order.Bounds.Defs
import NtpQuery.Proofs.Text.Utf8

/-!
# Where a text can be cut

The bytes of a text can be cut where a character ends. On the bytes alone,
that is in front of a byte that does not continue a character, or at the
end (`isBoundary`), and these places are exactly the ends of the front
parts of the text (`isBoundary_encode_iff`). So stepping back from any
place, byte by byte, comes to the longest front part that ends there or
before (`stepBack_isGreatest`).
-/

namespace NtpQuery.Text

/-- Whether a byte continues a character. -/
def isContinuation (b : UInt8) : Bool :=
  0x80 ≤ b.toNat && b.toNat < 0xC0

/-- **Whether bytes can be cut at a place**: at the front, at the end, or
in front of a byte that does not continue a character. -/
def isBoundary (bytes : Bytes) (i : Nat) : Bool :=
  i == 0 || match bytes[i]? with
    | some b => ! isContinuation b
    | none => i == bytes.length

/-- **Stepping back** from a place until bytes can be cut there. -/
def stepBack (bytes : Bytes) : Nat → Nat
  | 0 => 0
  | i + 1 => if isBoundary bytes (i + 1) then i + 1 else stepBack bytes i

/-- **Cutting bytes** to a limit, stepping back from it if they are
longer. -/
def cutBack (limit : Nat) (bytes : Bytes) : Bytes :=
  if bytes.length ≤ limit then bytes
  else bytes.take (stepBack bytes limit)

/-- **Stepping back comes to the greatest place** where bytes can be
cut. -/
theorem stepBack_isGreatest (bytes : Bytes) (i : Nat) :
    IsGreatest {j | j ≤ i ∧ isBoundary bytes j = true} (stepBack bytes i) := by
  induction i with
  | zero => exact ⟨⟨Nat.le_refl 0, rfl⟩, fun j hj => hj.1⟩
  | succ i ih =>
    unfold stepBack
    split
    next h => exact ⟨⟨Nat.le_refl _, h⟩, fun j hj => hj.1⟩
    next h =>
      obtain ⟨⟨hle, hcut⟩, hgreatest⟩ := ih
      refine ⟨⟨Nat.le_succ_of_le hle, hcut⟩, fun j hj => ?_⟩
      rcases Nat.le_succ_iff.mp hj.1 with hj' | rfl
      · exact hgreatest ⟨hj', hj.2⟩
      · exact absurd hj.2 h

/-! ## Boundaries of a text -/

theorem isContinuation_iff (b : UInt8) :
    isContinuation b = true ↔ 0x80 ≤ b.toNat ∧ b.toNat < 0xC0 := by
  simp [isContinuation]

/-- A byte that starts a sequence continues none. -/
theorem isContinuation_ofNat {n : Nat} (hlow : n < 0x80 ∨ 0xC0 ≤ n)
    (hbyte : n < 256) : isContinuation (UInt8.ofNat n) = false := by
  rw [← Bool.not_eq_true, isContinuation_iff, UInt8.toNat_ofNat',
    Nat.mod_eq_of_lt hbyte]
  omega

theorem isContinuation_of_rest (n : Nat) :
    isContinuation (UInt8.ofNat (0x80 + n % 64)) = true := by
  rw [isContinuation_iff, toNat_continuation]
  omega

/-- **The bytes of a character**: one that continues none, and then those
that do. -/
theorem encodeChar_eq (c : Char) :
    ∃ b tail, encodeChar c = b :: tail ∧ isContinuation b = false
      ∧ ∀ x ∈ tail, isContinuation x = true := by
  have hvalid : c.toNat < 0xD800 ∨ 0xDFFF < c.toNat ∧ c.toNat < 0x110000 :=
    c.valid
  have hone : ∀ x ∈ [UInt8.ofNat (0x80 + c.toNat % 64)],
      isContinuation x = true :=
    List.forall_mem_singleton.mpr (isContinuation_of_rest _)
  unfold encodeChar
  dsimp only
  split
  · exact ⟨_, [], rfl, isContinuation_ofNat (by omega) (by omega),
      List.forall_mem_nil _⟩
  split
  · exact ⟨_, [_], rfl, isContinuation_ofNat (by omega) (by omega), hone⟩
  split
  · exact ⟨_, [_, _], rfl, isContinuation_ofNat (by omega) (by omega),
      List.forall_mem_cons.mpr ⟨isContinuation_of_rest _, hone⟩⟩
  · exact ⟨_, [_, _, _], rfl, isContinuation_ofNat (by omega) (by omega),
      List.forall_mem_cons.mpr ⟨isContinuation_of_rest _,
        List.forall_mem_cons.mpr ⟨isContinuation_of_rest _, hone⟩⟩⟩

/-- An ASCII byte is a character by itself. -/
theorem eq_ofNat_of_mem_encodeChar {b : UInt8} (hb : b.toNat < 0x80)
    {c : Char} (h : b ∈ encodeChar c) : c = Char.ofNat b.toNat := by
  obtain ⟨x, tail, hc, -, htail⟩ := encodeChar_eq c
  rw [hc] at h
  rcases List.mem_cons.mp h with rfl | hmem
  · have hpieces := pieces_encodeChar c []
    rw [List.append_nil, hc, pieces, pieces, piece_of_ascii hb] at hpieces
    exact (Option.some.inj (List.cons.inj hpieces).1).symm
  · have hx := (isContinuation_iff b).mp (htail b hmem)
    omega

/-- A character has as many bytes as it counts for. -/
theorem length_encodeChar (c : Char) :
    (encodeChar c).length = c.utf8Size := by
  have hone : c.val ≤ 127 ↔ c.toNat < 0x80 :=
    UInt32.le_iff_toNat_le.trans Nat.lt_succ_iff.symm
  have htwo : c.val ≤ 2047 ↔ c.toNat < 0x800 :=
    UInt32.le_iff_toNat_le.trans Nat.lt_succ_iff.symm
  have hthree : c.val ≤ 65535 ↔ c.toNat < 0x10000 :=
    UInt32.le_iff_toNat_le.trans Nat.lt_succ_iff.symm
  show _ = if c.val ≤ 127 then 1 else if c.val ≤ 2047 then 2
    else if c.val ≤ 65535 then 3 else 4
  simp only [hone, htwo, hthree, encodeChar, apply_ite List.length]
  rfl

theorem length_encode_cons (c : Char) (s : List Char) :
    (encode (c :: s)).length = c.utf8Size + (encode s).length := by
  rw [← length_encodeChar]
  exact List.length_append

/-- The bytes of a front part stand at the front. -/
theorem encode_append (s t : List Char) :
    encode (s ++ t) = encode s ++ encode t :=
  List.flatMap_append

/-- A text starts with no byte that continues a character. -/
theorem head?_encode (s : List Char) :
    ∀ b ∈ (encode s).head?, isContinuation b = false := by
  cases s with
  | nil => exact fun b hb => nomatch hb
  | cons c s =>
    obtain ⟨b, tail, hc, hb, -⟩ := encodeChar_eq c
    show ∀ x ∈ (encodeChar c ++ encode s).head?, _
    rw [hc]
    exact fun x hx => Option.some.inj hx ▸ hb

/-- There is no boundary inside a character. -/
theorem isBoundary_of_lt {c : Char} {i : Nat} (hpos : 0 < i)
    (hlt : i < (encodeChar c).length) (s : List Char) :
    isBoundary (encode (c :: s)) i = false := by
  obtain ⟨b, tail, hc, -, htail⟩ := encodeChar_eq c
  obtain ⟨k, rfl⟩ : ∃ k, i = k + 1 := Nat.exists_eq_succ_of_ne_zero hpos.ne'
  have hk : k < tail.length := by
    rw [hc, List.length_cons] at hlt
    omega
  have hget : (encode (c :: s))[k + 1]? = some tail[k] := by
    show (encodeChar c ++ encode s)[k + 1]? = _
    rw [List.getElem?_append_left hlt, hc, List.getElem?_cons_succ,
      List.getElem?_eq_getElem hk]
  have hbyte := htail _ (List.getElem_mem hk)
  simp [isBoundary, hget, hbyte]

/-- Behind a character the boundaries are those of the rest. -/
theorem isBoundary_add (c : Char) (s : List Char) (j : Nat) :
    isBoundary (encode (c :: s)) ((encodeChar c).length + j)
      = isBoundary (encode s) j := by
  obtain ⟨b, tail, hc, -, -⟩ := encodeChar_eq c
  have hget : (encode (c :: s))[(encodeChar c).length + j]?
      = (encode s)[j]? := by
    show (encodeChar c ++ encode s)[_]? = _
    rw [List.getElem?_append_right (Nat.le_add_right _ _),
      Nat.add_sub_cancel_left]
  have hlen : (encode (c :: s)).length
      = (encodeChar c).length + (encode s).length := List.length_append
  unfold isBoundary
  rw [hget, hlen]
  cases j with
  | succ j =>
    have hend : ((encodeChar c).length + (j + 1)
        == (encodeChar c).length + (encode s).length)
        = (j + 1 == (encode s).length) := by
      rw [Bool.eq_iff_iff, beq_iff_eq, beq_iff_eq, Nat.add_left_cancel_iff]
    rw [hend]
    rfl
  | zero =>
    -- here the rest starts, or there is none
    cases hs : encode s with
    | nil => simp
    | cons x rest =>
      have hx := head?_encode s x (by rw [hs]; rfl)
      simp [hx]

/-- **The bytes of a text can be cut where a front part of it ends**, and
nowhere else. -/
theorem isBoundary_encode_iff {s : List Char} {i : Nat} :
    isBoundary (encode s) i = true ↔ ∃ p, p <+: s ∧ (encode p).length = i := by
  induction s generalizing i with
  | nil =>
    have hnil : isBoundary (encode []) i = true ↔ i = 0 := by
      show isBoundary [] i = true ↔ _
      simp [isBoundary]
    rw [hnil]
    constructor
    · rintro rfl
      exact ⟨[], List.prefix_rfl, rfl⟩
    · rintro ⟨p, hp, rfl⟩
      rw [List.prefix_nil.mp hp]
      rfl
  | cons c s ih =>
    constructor
    · intro h
      rcases Nat.eq_zero_or_pos i with rfl | hpos
      · exact ⟨[], List.nil_prefix, rfl⟩
      rcases Nat.lt_or_ge i (encodeChar c).length with hlt | hge
      · rw [isBoundary_of_lt hpos hlt] at h
        exact nomatch h
      · obtain ⟨j, rfl⟩ := Nat.exists_eq_add_of_le hge
        rw [isBoundary_add] at h
        obtain ⟨p, hp, rfl⟩ := ih.mp h
        refine ⟨c :: p, List.cons_prefix_cons.mpr ⟨rfl, hp⟩, ?_⟩
        rw [length_encode_cons, length_encodeChar]
    · rintro ⟨p, hp, rfl⟩
      rcases List.prefix_cons_iff.mp hp with rfl | ⟨p, rfl, hrest⟩
      · rfl
      · rw [length_encode_cons, ← length_encodeChar, isBoundary_add]
        exact ih.mpr ⟨p, hrest, rfl⟩

end NtpQuery.Text
