import NtpQuery.Proofs.Text.Boundary

/-!
# Lenient reading of bytes that were cut

Lenient reading does not look beyond a byte that continues no character. So
bytes can be read in parts that start with such bytes
(`decodeLossy_append`). In particular, what is read of a run of bytes stays
what it is when a character behind it is cut: of the character, a single
U+FFFD is left (`decodeLossy_cut`).
-/

namespace NtpQuery.Text

/-! ## Reading in parts -/

/-- Continuation bytes are taken off in front of a byte that is none. -/
theorem tailChar_append {q : Bytes}
    (hq : ∀ b ∈ q.head?, isContinuation b = false) (more value : Nat)
    (rest : Bytes) :
    tailChar more value (rest ++ q)
      = ((tailChar more value rest).1, (tailChar more value rest).2 ++ q) := by
  fun_induction tailChar more value rest with
  | case1 => rw [tailChar]
  | case2 more value b rest hb ih =>
    rw [List.cons_append, tailChar, if_pos hb, ih]
  | case3 more value b rest hb =>
    rw [List.cons_append, tailChar, if_neg hb]
  | case4 more value =>
    cases q with
    | nil => rw [List.append_nil, tailChar]
    | cons b q =>
      have hb : ¬ (0x80 ≤ b.toNat ∧ b.toNat ≤ 0xBF) := by
        have := hq b rfl
        rw [← Bool.not_eq_true, isContinuation_iff] at this
        omega
      rw [List.nil_append, tailChar, if_neg hb]

/-- The second byte of a sequence continues a character. -/
theorem high_of_lead? {b : UInt8} {l : Lead} (hb : lead? b = some l) :
    l.high ≤ 0xBF := by
  unfold lead? at hb
  dsimp only at hb
  split_ifs at hb <;> obtain rfl := Option.some.inj hb <;> dsimp only <;>
    omega

/-- So is a piece. -/
theorem piece_append {q : Bytes}
    (hq : ∀ b ∈ q.head?, isContinuation b = false) (b : UInt8)
    (rest : Bytes) :
    piece b (rest ++ q) = ((piece b rest).1, (piece b rest).2 ++ q) := by
  by_cases hascii : b.toNat < 0x80
  · rw [piece_of_ascii hascii, piece_of_ascii hascii]
  unfold piece
  rw [if_neg hascii, if_neg hascii]
  cases hlead : lead? b with
  | none => rfl
  | some l =>
    cases rest with
    | nil =>
      cases q with
      | nil => rfl
      | cons x q =>
        have hrange : ¬ (l.low ≤ x.toNat ∧ x.toNat ≤ l.high) := by
          have hx := hq x rfl
          rw [← Bool.not_eq_true, isContinuation_iff] at hx
          have hlow := (lead?_spec hlead).1
          have hhigh := high_of_lead? hlead
          omega
        dsimp only [List.nil_append]
        rw [if_neg hrange]
    | cons x rest =>
      dsimp only [List.cons_append]
      by_cases hrange : l.low ≤ x.toNat ∧ x.toNat ≤ l.high
      · rw [if_pos hrange, if_pos hrange, tailChar_append hq]
      · rw [if_neg hrange, if_neg hrange, List.cons_append]

/-- **Bytes come apart into the pieces of their parts**, if no part starts
in the middle of a character. -/
theorem pieces_append {q : Bytes}
    (hq : ∀ b ∈ q.head?, isContinuation b = false) (p : Bytes) :
    pieces (p ++ q) = pieces p ++ pieces q := by
  induction p using pieces.induct with
  | case1 => rw [pieces.eq_1, List.nil_append, List.nil_append]
  | case2 b rest ih =>
    rw [List.cons_append, pieces, pieces, piece_append hq, ih,
      List.cons_append]

/-- So are they read. -/
theorem decodeLossy_append {q : Bytes}
    (hq : ∀ b ∈ q.head?, isContinuation b = false) (p : Bytes) :
    decodeLossy (p ++ q) = decodeLossy p ++ decodeLossy q := by
  unfold decodeLossy
  rw [pieces_append hq, List.map_append]

/-! ## Characters that are cut -/

/-- Continuation bytes that make up a character do not make up one any more
when they are cut. -/
theorem tailChar_take {more value : Nat} {rest : Bytes} {c : Char}
    (h : tailChar more value rest = (some c, [])) {k : Nat}
    (hk : k < rest.length) :
    tailChar more value (rest.take k) = (none, []) := by
  fun_induction tailChar more value rest generalizing k with
  | case1 =>
    obtain ⟨-, rfl⟩ := Prod.mk.inj h
    exact absurd hk (Nat.not_lt_zero k)
  | case2 more value b rest hb ih =>
    cases k with
    | zero => rw [List.take_zero, tailChar]
    | succ k =>
      rw [List.take_succ_cons, tailChar, if_pos hb]
      exact ih h (Nat.lt_of_succ_lt_succ hk)
  | case3 => cases h
  | case4 => cases h

/-- Neither does a piece. -/
theorem piece_take {b : UInt8} {rest : Bytes} {c : Char}
    (h : piece b rest = (some c, [])) {k : Nat} (hk : k < rest.length) :
    piece b (rest.take k) = (none, []) := by
  have hlong : ¬ b.toNat < 0x80 := by
    intro hascii
    rw [piece_of_ascii hascii] at h
    obtain ⟨-, rfl⟩ := Prod.mk.inj h
    exact absurd hk (Nat.not_lt_zero k)
  unfold piece at h ⊢
  rw [if_neg hlong] at h ⊢
  cases hlead : lead? b with
  | none =>
    rw [hlead] at h
    exact nomatch h
  | some l =>
    rw [hlead] at h
    cases rest with
    | nil => exact nomatch h
    | cons x rest =>
      dsimp only at h
      cases k with
      | zero => rfl
      | succ k =>
        dsimp only [List.take_succ_cons]
        by_cases hrange : l.low ≤ x.toNat ∧ x.toNat ≤ l.high
        · rw [if_pos hrange] at h ⊢
          exact tailChar_take h (Nat.lt_of_succ_lt_succ hk)
        · rw [if_neg hrange] at h
          exact nomatch h

/-- **A character that is cut** is read as a single U+FFFD. -/
theorem decodeLossy_take_encodeChar {c : Char} {k : Nat} (hpos : 0 < k)
    (hlt : k < (encodeChar c).length) :
    decodeLossy ((encodeChar c).take k) = ['\uFFFD'] := by
  obtain ⟨b, tail, hc, -, -⟩ := encodeChar_eq c
  obtain ⟨j, rfl⟩ : ∃ j, k = j + 1 := Nat.exists_eq_succ_of_ne_zero hpos.ne'
  -- the bytes of the character are one piece, with nothing left over
  have hwhole : piece b tail = (some c, []) := by
    have hpieces := pieces_encodeChar c []
    rw [List.append_nil, hc, pieces, pieces] at hpieces
    obtain ⟨hfirst, hnone⟩ := List.cons.inj hpieces
    cases hleft : (piece b tail).2 with
    | nil => exact Prod.ext hfirst hleft
    | cons x left =>
      rw [hleft, pieces] at hnone
      cases hnone
  have hcut : piece b (tail.take j) = (none, []) := by
    refine piece_take hwhole ?_
    rw [hc, List.length_cons] at hlt
    exact Nat.lt_of_succ_lt_succ hlt
  unfold decodeLossy
  rw [hc, List.take_succ_cons, pieces, hcut, pieces]
  rfl

/-- A longer character has no zero among its bytes. -/
theorem zero_not_mem_encodeChar {c : Char}
    (hlong : 1 < (encodeChar c).length) : (0 : UInt8) ∉ encodeChar c := by
  intro hzero
  obtain rfl := eq_ofNat_of_mem_encodeChar (by decide) hzero
  exact absurd hlong (by decide)

/-- **Bytes that are cut in the middle of a character** are read as they
were read in front of it, and with a single U+FFFD in its place. -/
theorem decodeLossy_cut (p : Bytes) {c : Char} (rest : Bytes) {k : Nat}
    (hpos : 0 < k) (hlt : k < (encodeChar c).length) :
    decodeLossy (p ++ (encodeChar c).take k) = decodeLossy p ++ ['\uFFFD']
      ∧ decodeLossy (p ++ (encodeChar c ++ rest))
        = decodeLossy p ++ c :: decodeLossy rest := by
  obtain ⟨b, tail, hc, hb, -⟩ := encodeChar_eq c
  obtain ⟨j, rfl⟩ : ∃ j, k = j + 1 := Nat.exists_eq_succ_of_ne_zero hpos.ne'
  constructor
  · rw [decodeLossy_append, decodeLossy_take_encodeChar hpos hlt]
    rw [hc]
    exact fun x hx => Option.some.inj hx ▸ hb
  · rw [decodeLossy_append]
    · refine congrArg _ ?_
      unfold decodeLossy
      rw [pieces_encodeChar]
      rfl
    · rw [hc]
      exact fun x hx => Option.some.inj hx ▸ hb

end NtpQuery.Text
