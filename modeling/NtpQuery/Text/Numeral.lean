/-!
# Numerals

Whole numbers are written in canonical form: no sign unless negative,
no leading zero. They are read more freely: leading zeros and a `+` in
front are allowed, blanks are not, and a number outside the range of
its reader is refused.
-/

namespace NtpQuery.Text

/-- The digit of a value below sixteen, in lower case. -/
def digitChar (d : Nat) : Char :=
  if d < 10 then Char.ofNat (48 + d) else Char.ofNat (87 + d)

/-- The value of a digit in the given base, which is at most sixteen;
letters count in either case. -/
def digitValue? (base : Nat) (c : Char) : Option Nat :=
  let n := c.toNat
  let value? :=
    if 48 ≤ n ∧ n ≤ 57 then some (n - 48)
    else if 97 ≤ n ∧ n ≤ 102 then some (n - 87)
    else if 65 ≤ n ∧ n ≤ 70 then some (n - 55)
    else none
  value?.filter (· < base)

/-- The digits of a number in a base of at least two, most significant
first. -/
def digits (base n : Nat) : List Char :=
  if _h : n < base ∨ base < 2 then [digitChar n]
  else digits base (n / base) ++ [digitChar (n % base)]
termination_by n
decreasing_by exact Nat.div_lt_self (by omega) (by omega)

/-- The canonical decimal numeral. -/
def decimal (n : Nat) : String :=
  String.ofList (digits 10 n)

/-- The canonical decimal numeral of an integer. -/
def signedDecimal (n : Int) : String :=
  if n < 0 then "-" ++ decimal n.natAbs else decimal n.natAbs

/-- A number in lower case hexadecimal, filled with zeros on the left to
`width` digits. -/
def hexadecimal (width n : Nat) : String :=
  let ds := digits 16 n
  String.ofList (List.replicate (width - ds.length) '0' ++ ds)

/-- The value of a run of digits, after the value of those before it. -/
def readDigits? (base : Nat) : Nat → List Char → Option Nat
  | acc, [] => some acc
  | acc, c :: rest =>
    match digitValue? base c with
    | some d => readDigits? base (base * acc + d) rest
    | none => none

/-- The value of a numeral that is all digits, and at least one. -/
def readNumeral? (base : Nat) (s : List Char) : Option Nat :=
  if s.isEmpty then none else readDigits? base 0 s

/-- **Reading an unsigned number** below `bound`: digits, with or
without a `+` in front. -/
def readUnsigned? (base bound : Nat) (s : List Char) : Option Nat :=
  let body := match s with
    | '+' :: rest => rest
    | _ => s
  (readNumeral? base body).filter (· < bound)

/-- **Reading a signed number** of at least `-half` and below `half`:
digits, with or without a sign in front. -/
def readSigned? (half : Nat) (s : List Char) : Option Int :=
  match s with
  | '-' :: rest =>
    ((readNumeral? 10 rest).filter (· ≤ half)).map fun n => -(n : Int)
  | _ => (readUnsigned? 10 half s).map fun n => (n : Int)

end NtpQuery.Text
