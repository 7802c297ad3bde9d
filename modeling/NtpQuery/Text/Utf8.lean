import NtpQuery.Bytes

/-!
# UTF-8

Text goes out as UTF-8. Bytes that come in need not be UTF-8: they are
split into *pieces*, each a character or a broken part. A broken part
is the longest run that starts like a character and is cut short, or
else a single byte that can start none. Reading a text leniently puts
U+FFFD in place of each broken part; reading it strictly refuses them.
-/

namespace NtpQuery.Text

/-- The UTF-8 bytes of a character. -/
def encodeChar (c : Char) : Bytes :=
  let n := c.toNat
  if n < 0x80 then [UInt8.ofNat n]
  else if n < 0x800 then
    [UInt8.ofNat (0xC0 + n / 64), UInt8.ofNat (0x80 + n % 64)]
  else if n < 0x10000 then
    [UInt8.ofNat (0xE0 + n / 4096), UInt8.ofNat (0x80 + n / 64 % 64),
      UInt8.ofNat (0x80 + n % 64)]
  else
    [UInt8.ofNat (0xF0 + n / 262144), UInt8.ofNat (0x80 + n / 4096 % 64),
      UInt8.ofNat (0x80 + n / 64 % 64), UInt8.ofNat (0x80 + n % 64)]

/-- The UTF-8 bytes of a text. -/
def encode (s : List Char) : Bytes :=
  s.flatMap encodeChar

/-- The UTF-8 bytes of a string. -/
def utf8 (s : String) : Bytes :=
  encode s.toList

/-- **How a sequence goes on after its first byte**: the value that the
first byte contributes, the range of the second byte, and how many
plain continuation bytes follow it. -/
structure Lead where
  /-- The bits of the first byte that belong to the character. -/
  value : Nat
  /-- The least second byte. -/
  low : Nat
  /-- The greatest second byte. -/
  high : Nat
  /-- The number of continuation bytes after the second. -/
  more : Nat

/-- The leads of sequences of two to four bytes. The ranges of the
second byte leave out overlong forms, surrogates and values above
U+10FFFF. -/
def lead? (b : UInt8) : Option Lead :=
  let n := b.toNat
  if 0xC2 ≤ n ∧ n ≤ 0xDF then some ⟨n - 0xC0, 0x80, 0xBF, 0⟩
  else if n = 0xE0 then some ⟨0, 0xA0, 0xBF, 1⟩
  else if n = 0xED then some ⟨13, 0x80, 0x9F, 1⟩
  else if 0xE1 ≤ n ∧ n ≤ 0xEF then some ⟨n - 0xE0, 0x80, 0xBF, 1⟩
  else if n = 0xF0 then some ⟨0, 0x90, 0xBF, 2⟩
  else if 0xF1 ≤ n ∧ n ≤ 0xF3 then some ⟨n - 0xF0, 0x80, 0xBF, 2⟩
  else if n = 0xF4 then some ⟨4, 0x80, 0x8F, 2⟩
  else none

/-- Reads `more` continuation bytes onto a value. The answer is the
character, or `none` for a broken part, and the bytes after it. -/
def tailChar : Nat → Nat → Bytes → Option Char × Bytes
  | 0, value, rest => (some (Char.ofNat value), rest)
  | more + 1, value, b :: rest =>
    if 0x80 ≤ b.toNat ∧ b.toNat ≤ 0xBF then
      tailChar more (64 * value + (b.toNat - 0x80)) rest
    else (none, b :: rest)
  | _ + 1, _, [] => (none, [])

/-- The piece that starts with the byte `b`, and the bytes after it. -/
def piece (b : UInt8) (rest : Bytes) : Option Char × Bytes :=
  if b.toNat < 0x80 then (some (Char.ofNat b.toNat), rest)
  else
    match lead? b, rest with
    | some l, c :: rest' =>
      if l.low ≤ c.toNat ∧ c.toNat ≤ l.high then
        tailChar l.more (64 * l.value + (c.toNat - 0x80)) rest'
      else (none, rest)
    | _, _ => (none, rest)

/-- Continuation bytes are only ever taken off. -/
theorem length_tailChar_le (more value : Nat) (rest : Bytes) :
    (tailChar more value rest).2.length ≤ rest.length := by
  fun_induction tailChar more value rest with
  | case1 => simp
  | case2 more value b rest h ih => simp only [List.length_cons]; omega
  | case3 => simp
  | case4 => simp

/-- A piece takes at least its first byte. -/
theorem length_piece_le (b : UInt8) (rest : Bytes) :
    (piece b rest).2.length ≤ rest.length := by
  fun_cases piece b rest with
  | case1 => simp
  | case2 _ l c rest' _ _ =>
    have := length_tailChar_le l.more
      (64 * l.value + (c.toNat - 0x80)) rest'
    simp only [List.length_cons]
    omega
  | case3 => simp
  | case4 => simp

/-- **The pieces of a run of bytes**: each a character, or `none` for a
broken part. -/
def pieces : Bytes → List (Option Char)
  | [] => []
  | b :: rest => (piece b rest).1 :: pieces (piece b rest).2
termination_by bytes => bytes.length
decreasing_by
  have := length_piece_le b rest
  simp only [List.length_cons]
  omega

/-- **Lenient reading**: each broken part is read as U+FFFD. -/
def decodeLossy (bytes : Bytes) : List Char :=
  (pieces bytes).map fun c? => c?.getD '\uFFFD'

/-- **Strict reading**: the text whose UTF-8 the bytes are, if any. -/
def decode? (bytes : Bytes) : Option (List Char) :=
  (pieces bytes).mapM id

end NtpQuery.Text
