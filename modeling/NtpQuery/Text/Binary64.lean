import NtpQuery.Text.Numeral

/-!
# Decimal text and binary64

Servers send delays and offsets as decimal text, and tables show them
with three places. In between the value is a binary64 number, so a text
is first rounded to the nearest such number (`Binary64.read?`) and that
number is then rounded to its places (`Binary64.fixed`). Both steps are
exact arithmetic on natural numbers, and a tie goes to the even
neighbour in both.
-/

namespace NtpQuery.Text

/-- A binary64 number. -/
inductive Binary64 where
  /-- Not a number. -/
  | nan
  /-- An infinity. -/
  | infinite (negative : Bool)
  /-- The number `± significand · 2 ^ exponent`. -/
  | finite (negative : Bool) (significand : Nat) (exponent : Int)
  deriving DecidableEq

namespace Binary64

/-- The integer nearest to `num / den`; a tie goes to the even one. -/
def roundDiv (num den : Nat) : Nat :=
  let q := num / den
  let r := num % den
  if den < 2 * r ∨ (2 * r = den ∧ q % 2 = 1) then q + 1 else q

/-- The integer nearest to `num / den / 2 ^ e`; a tie goes to the even
one. -/
def roundAt (num den : Nat) (e : Int) : Nat :=
  roundDiv (num * Nat.pow 2 (-e).toNat) (den * Nat.pow 2 e.toNat)

/-- **The nearest binary64 number** to `num / den`, with a sign. The
exponent is the least that leaves at most 53 bits in the significand,
and not below that of the subnormal numbers. -/
def nearest (negative : Bool) (num den : Nat) : Binary64 :=
  let guess : Int := max (Int.ofNat num.log2 - Int.ofNat den.log2 - 53) (-1074)
  let e :=
    if Nat.pow 2 53 * (den * Nat.pow 2 guess.toNat)
      ≤ num * Nat.pow 2 (-guess).toNat
    then guess + 1 else guess
  let m := roundAt num den e
  if Nat.pow 2 1024 ≤ m * Nat.pow 2 e.toNat then .infinite negative
  else .finite negative m e

/-- The binary64 number nearest to `± ds · 10 ^ x`, where `ds` are
decimal digits. Numbers far outside the range are settled by their size
alone. -/
def ofDecimal (negative : Bool) (ds : List Char) (x : Int) : Binary64 :=
  let significant := ds.dropWhile (· == '0')
  let top := Int.ofNat significant.length + x
  match readDigits? 10 0 significant with
  | none | some 0 => .finite negative 0 0
  | some n =>
    if top > 400 then .infinite negative
    else if top < -400 then .finite negative 0 0
    else nearest negative (n * Nat.pow 10 x.toNat) (Nat.pow 10 (-x).toNat)

/-- The value of the digits of an exponent. Digits that follow after
the value has passed `2 ^ 16` do not change it: by then the number is
out of range either way. -/
def exponentValue (ds : List Char) : Nat :=
  ds.foldl
    (fun v c => if v < 65536 then 10 * v + (c.toNat - 48) else v) 0

/-- The exponent part of a decimal: nothing, or an `e`, an optional sign
and digits. -/
def readExponent? : List Char → Option Int
  | [] => some 0
  | c :: rest =>
    if c != 'e' && c != 'E' then none
    else
      let (negative, ds) := match rest with
        | '-' :: ds => (true, ds)
        | '+' :: ds => (false, ds)
        | ds => (false, ds)
      if ds.isEmpty || !ds.all Char.isDigit then none
      else
        let v := Int.ofNat (exponentValue ds)
        some (if negative then -v else v)

/-- A decimal without sign: digits with an optional point, at least one
digit, and an optional exponent. -/
def readDecimal? (negative : Bool) (s : List Char) : Option Binary64 :=
  let whole := s.takeWhile Char.isDigit
  let (places, rest) := match s.dropWhile Char.isDigit with
    | '.' :: after =>
      (after.takeWhile Char.isDigit, after.dropWhile Char.isDigit)
    | rest => ([], rest)
  if whole.isEmpty && places.isEmpty then none
  else
    (readExponent? rest).map fun x =>
      ofDecimal negative (whole ++ places) (x - Int.ofNat places.length)

/-- **Reading a number**: an optional sign, then a decimal or one of the
words `inf`, `infinity` and `nan` in any case. -/
def read? (s : List Char) : Option Binary64 :=
  let (negative, body) := match s with
    | '-' :: rest => (true, rest)
    | '+' :: rest => (false, rest)
    | _ => (false, s)
  let lower := body.map Char.toLower
  if lower == "inf".toList || lower == "infinity".toList then
    some (.infinite negative)
  else if lower == "nan".toList then some .nan
  else readDecimal? negative body

/-- The sign in front of a number. -/
def sign (negative : Bool) : String :=
  if negative then "-" else ""

/-- **A number with a fixed count of places**, at least one. The sign of
a negative number is kept even when all its digits are zero. -/
def fixed (places : Nat) : Binary64 → String
  | .nan => "NaN"
  | .infinite negative => sign negative ++ "inf"
  | .finite negative m e =>
    let n := roundAt (m * Nat.pow 10 places) 1 (-e)
    let fraction := digits 10 (n % Nat.pow 10 places)
    sign negative ++ decimal (n / Nat.pow 10 places) ++ "."
      ++ String.ofList
        (List.replicate (places - fraction.length) '0' ++ fraction)

end Binary64

end NtpQuery.Text
