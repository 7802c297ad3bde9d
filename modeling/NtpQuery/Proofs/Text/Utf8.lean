import Mathlib.Tactic.IntervalCases
import NtpQuery.Text.Utf8

/-!
# What lenient reading loses

Lenient reading takes a run of bytes apart piece by piece. The bytes of a
character come off as one piece, which is that character, whatever bytes
follow them (`pieces_encodeChar`). So the bytes of a text are read as that
text, and bytes that are no text come back changed
(`encode_decodeLossy_iff`).

Whether there is a line end at the end is not lost: no broken part has a
byte below 128 in it, and neither has a character above 127
(`getLast?_decodeLossy_iff`).
-/

namespace NtpQuery.Text

/-! ## Characters are read as they are written -/

/-- A byte below 128 is a piece of its own. -/
theorem piece_of_ascii {b : UInt8} (hb : b.toNat < 0x80) (rest : Bytes) :
    piece b rest = (some (Char.ofNat b.toNat), rest) :=
  if_pos hb

/-- A byte that starts a sequence is not below 194. -/
theorem le_of_lead? {b : UInt8} {l : Lead} (hb : lead? b = some l) :
    0xC2 ≤ b.toNat := by
  by_contra hlt
  have hnone : lead? b = none := by
    unfold lead?
    dsimp only
    iterate 7 rw [if_neg (by omega)]
  exact nomatch hnone.symm.trans hb

/-- The lead of a sequence of two bytes. -/
theorem lead?_two {v : Nat} (hlow : 2 ≤ v) (hhigh : v < 32) :
    lead? (UInt8.ofNat (0xC0 + v)) = some ⟨v, 0x80, 0xBF, 0⟩ := by
  interval_cases v <;> rfl

/-- The lead of a sequence of three bytes. -/
theorem lead?_three {v : Nat} (hv : v < 16) :
    lead? (UInt8.ofNat (0xE0 + v))
      = some ⟨v, if v = 0 then 0xA0 else 0x80,
        if v = 13 then 0x9F else 0xBF, 1⟩ := by
  interval_cases v <;> rfl

/-- The lead of a sequence of four bytes. -/
theorem lead?_four {v : Nat} (hv : v < 5) :
    lead? (UInt8.ofNat (0xF0 + v))
      = some ⟨v, if v = 0 then 0x90 else 0x80,
        if v = 4 then 0x8F else 0xBF, 2⟩ := by
  interval_cases v <;> rfl

/-- A continuation byte holds the six lowest bits of a value. -/
theorem toNat_continuation (n : Nat) :
    (UInt8.ofNat (0x80 + n % 64)).toNat = 0x80 + n % 64 := by
  rw [UInt8.toNat_ofNat']
  omega

/-- A continuation byte adds its six bits to what has been read. -/
theorem tailChar_continuation (more value n : Nat) (rest : Bytes) :
    tailChar (more + 1) value (UInt8.ofNat (0x80 + n % 64) :: rest)
      = tailChar more (64 * value + n % 64) rest := by
  rw [tailChar, toNat_continuation, if_pos (by omega),
    Nat.add_sub_cancel_left]

/-- So does the first one, if it is in the range of the lead. -/
theorem piece_continuation {b : UInt8} {l : Lead} (hb : lead? b = some l)
    {n : Nat} (hlow : l.low ≤ 0x80 + n % 64) (hhigh : 0x80 + n % 64 ≤ l.high)
    (rest : Bytes) :
    piece b (UInt8.ofNat (0x80 + n % 64) :: rest)
      = tailChar l.more (64 * l.value + n % 64) rest := by
  have hle := le_of_lead? hb
  unfold piece
  rw [if_neg (by omega), hb]
  dsimp only
  rw [toNat_continuation, if_pos ⟨hlow, hhigh⟩, Nat.add_sub_cancel_left]

/-- **The bytes of a character are one piece**, whatever follows them. -/
theorem pieces_encodeChar (c : Char) (rest : Bytes) :
    pieces (encodeChar c ++ rest) = some c :: pieces rest := by
  -- the piece at the front is all there is to look at
  have hfront : ∀ b tail n,
      piece b (tail ++ rest) = (some (Char.ofNat n), rest) → n = c.toNat →
      pieces (b :: tail ++ rest) = some c :: pieces rest := by
    rintro b tail _ hpiece rfl
    rw [List.cons_append, pieces, hpiece, Char.ofNat_toNat]
  have hvalid : c.toNat < 0xD800 ∨ 0xDFFF < c.toNat ∧ c.toNat < 0x110000 :=
    c.valid
  unfold encodeChar
  dsimp only
  split
  next hone =>
    have hb : (UInt8.ofNat c.toNat).toNat = c.toNat := by
      rw [UInt8.toNat_ofNat']
      omega
    exact hfront _ [] _ (piece_of_ascii (by omega) rest) hb
  split
  next hmore htwo =>
    refine hfront _ [_] _ (piece_continuation
      (lead?_two (by omega) (by omega)) ?_ ?_ _) ?_
    · show 0x80 ≤ _
      omega
    · show _ ≤ 0xBF
      omega
    · dsimp only
      omega
  split
  next hmore' hthree =>
    refine hfront _ [_, _] _ ((piece_continuation
      (lead?_three (by omega)) ?_ ?_ _).trans
      (tailChar_continuation ..)) ?_
    · dsimp only
      split <;> omega
    · dsimp only
      split <;> omega
    · dsimp only
      omega
  next hmore' hfour =>
    refine hfront _ [_, _, _] _ (((piece_continuation
      (lead?_four (by omega)) ?_ ?_ _).trans
      (tailChar_continuation ..)).trans (tailChar_continuation ..)) ?_
    · dsimp only
      split <;> omega
    · dsimp only
      split <;> omega
    · dsimp only
      omega

/-- The bytes of a text are the pieces that its characters are. -/
theorem pieces_encode (s : List Char) : pieces (encode s) = s.map some := by
  induction s with
  | nil => exact pieces.eq_1
  | cons c s ih =>
    show pieces (encodeChar c ++ encode s) = some c :: s.map some
    rw [pieces_encodeChar, ih]

/-- **The bytes of a text are read as that text.** -/
theorem decodeLossy_encode (s : List Char) : decodeLossy (encode s) = s := by
  unfold decodeLossy
  rw [pieces_encode, List.map_map]
  exact List.map_id s

/-- **Bytes come back as they were** exactly if they are those of a
text. -/
theorem encode_decodeLossy_iff (bytes : Bytes) :
    encode (decodeLossy bytes) = bytes ↔ ∃ s, bytes = encode s := by
  constructor
  · exact fun h => ⟨_, h.symm⟩
  · rintro ⟨s, rfl⟩
    rw [decodeLossy_encode]

/-! ## Line ends -/

/-- No number but that of a line end stands for one. -/
theorem eq_of_ofNat_eq_newline {n : Nat} (h : Char.ofNat n = '\n') :
    n = 10 := by
  have hn : (Char.ofNat n).toNat = n ∨ (Char.ofNat n).toNat = 0 := by
    by_cases hvalid : n.isValidChar
    · exact Or.inl (congrArg Char.toNat (dif_pos hvalid))
    · exact Or.inr (congrArg Char.toNat (dif_neg hvalid))
  rw [h] at hn
  exact (hn.resolve_right (by decide)).symm

/-- **What continuation bytes are**: 128 or above. A value does not get
less by them. -/
theorem tailChar_spec (more value : Nat) (rest : Bytes) :
    ∃ front, rest = front ++ (tailChar more value rest).2
      ∧ (∀ b ∈ front, 0x80 ≤ b.toNat)
      ∧ ((tailChar more value rest).1 = some '\n' → value ≤ 10) := by
  have hnone : none ≠ some '\n' := (Option.some_ne_none _).symm
  fun_induction tailChar more value rest with
  | case1 value rest =>
    refine ⟨[], rfl, List.forall_mem_nil _, fun h => ?_⟩
    exact (eq_of_ofNat_eq_newline (Option.some.inj h)).le
  | case2 more value b rest hb ih =>
    obtain ⟨front, hrest, hfront, hvalue⟩ := ih
    refine ⟨b :: front, ?_, ?_, fun h => ?_⟩
    · rw [List.cons_append, ← hrest]
    · exact List.forall_mem_cons.mpr ⟨hb.1, hfront⟩
    · have := hvalue h
      omega
  | case3 => exact ⟨[], rfl, List.forall_mem_nil _, fun h => absurd h hnone⟩
  | case4 => exact ⟨[], rfl, List.forall_mem_nil _, fun h => absurd h hnone⟩

/-- The second byte of a sequence is 128 or above, and together with the
first it says that the character is above 127. -/
theorem lead?_spec {b : UInt8} {l : Lead} (hb : lead? b = some l) :
    0x80 ≤ l.low ∧ 10 < 64 * l.value + (l.low - 0x80) := by
  have hle := le_of_lead? hb
  unfold lead? at hb
  dsimp only at hb
  split_ifs at hb <;> obtain rfl := Option.some.inj hb <;> dsimp only <;>
    omega

/-- **A piece is a line end** exactly if its last byte is one. -/
theorem piece_split (b : UInt8) (rest : Bytes) :
    ∃ front, b :: rest = front ++ (piece b rest).2 ∧ front ≠ []
      ∧ ((piece b rest).1.getD '\uFFFD' = '\n'
        ↔ front.getLast? = some 10) := by
  have hhigh : ∀ bytes : Bytes, (∀ x ∈ bytes, 0x80 ≤ x.toNat) →
      bytes.getLast? ≠ some 10 := fun _ h hlast =>
    absurd (h 10 (List.mem_of_getLast? hlast)) (by decide)
  -- a byte that is a broken part by itself
  have hbroken : ∀ {left : Bytes}, ¬ b.toNat < 0x80 →
      ∃ front, b :: left = front ++ left ∧ front ≠ []
        ∧ ('\uFFFD' = '\n' ↔ front.getLast? = some 10) := by
    intro left hb
    refine ⟨[b], rfl, List.cons_ne_nil _ _, fun h => absurd h (by decide),
      fun h => absurd h (hhigh _ fun x hx => ?_)⟩
    rw [List.mem_singleton.mp hx]
    exact Nat.le_of_not_lt hb
  fun_cases piece b rest with
  | case1 hb =>
    refine ⟨[b], rfl, List.cons_ne_nil _ _, fun h => ?_, fun h => ?_⟩
    · exact congrArg some (UInt8.toNat_inj.mp (eq_of_ofNat_eq_newline h))
    · obtain rfl : b = 10 := Option.some.inj h
      rfl
  | case2 hb l c rest' hlead hrange =>
    obtain ⟨hlow, hten⟩ := lead?_spec hlead
    obtain ⟨front, hrest, hfront, hvalue⟩ := tailChar_spec l.more
      (64 * l.value + (c.toNat - 0x80)) rest'
    refine ⟨b :: c :: front, ?_, List.cons_ne_nil _ _,
      fun h => ?_, fun h => absurd h (hhigh _ ?_)⟩
    · rw [List.cons_append, List.cons_append, ← hrest]
    · -- a line end would be a value that the lead is above
      cases hchar : (tailChar l.more
          (64 * l.value + (c.toNat - 0x80)) rest').1 with
      | none =>
        rw [hchar] at h
        exact absurd h (by decide)
      | some x =>
        rw [hchar] at h
        have := hvalue (hchar.trans (congrArg some h))
        omega
    · exact List.forall_mem_cons.mpr ⟨by omega,
        List.forall_mem_cons.mpr ⟨by omega, hfront⟩⟩
  | case3 hb => exact hbroken hb
  | case4 _ hb => exact hbroken hb

/-- **A text that was read ends in a line end** exactly if its bytes do,
whether they can be read or not. -/
theorem getLast?_decodeLossy_iff (bytes : Bytes) :
    (decodeLossy bytes).getLast? = some '\n' ↔ bytes.getLast? = some 10 := by
  unfold decodeLossy
  induction bytes using pieces.induct with
  | case1 =>
    rw [pieces]
    exact iff_of_false nofun nofun
  | case2 b rest ih =>
    obtain ⟨front, hsplit, hne, hpiece⟩ := piece_split b rest
    rw [pieces, hsplit, List.map_cons, List.getLast?_append]
    generalize (piece b rest).2 = left at ih ⊢
    cases left with
    | nil =>
      rw [pieces]
      exact Option.some_inj.trans hpiece
    | cons b' left' =>
      rw [pieces] at ih ⊢
      rw [List.map_cons] at ih ⊢
      rw [List.getLast?_cons_cons, ih, List.getLast?_cons, Option.some_or]

end NtpQuery.Text
