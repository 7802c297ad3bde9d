import NtpQuery.Toml.Value

/-!
# TOML scalars

Numbers, truth values, dates and times are written as a run of
characters that ends at a blank, a comma, a bracket or a comment. This
module says what such a run means.
-/

namespace NtpQuery.Toml

open Text

/-- A blank within a line. -/
def isBlank (c : Char) : Bool :=
  c == ' ' || c == '\t'

/-- Whether a digit belongs to a base. -/
def isDigitOf (base : Nat) (c : Char) : Bool :=
  (digitValue? base c).isSome

/-- **Whether underscores group the digits of a number**: each has a
digit on either side. If `free`, the first may also stand at the start,
where a sign has been taken off. -/
def isGrouped (isDigit : Char → Bool) : (free : Bool) → List Char → Bool
  | _, [] => true
  | free, '_' :: rest =>
    free && (rest.head?.map isDigit).getD false
      && isGrouped isDigit false rest
  | _, c :: rest => isGrouped isDigit (isDigit c) rest

/-- A number without its underscores. -/
def ungrouped (s : List Char) : List Char :=
  s.filter (· != '_')

/-- Whether an integer is small enough to be read. -/
def integerFits (n : Int) : Bool :=
  -Int.ofNat (Nat.pow 2 127) ≤ n && n < Int.ofNat (Nat.pow 2 128)

/-- **The integer with the given digits and sign.** It has no number if
there are no digits, if some are of another base, or if it is too
large. -/
def integer (base : Nat) (negative : Bool) (s : List Char) : Value :=
  let n? := (readNumeral? base (ungrouped s)).map Int.ofNat
  let n? := if negative then n?.map Int.neg else n?
  .integer (n?.filter integerFits)

/-- **An integer in base sixteen, eight or two.** It need not have
digits. -/
def based? (base : Nat) (s : List Char) : Option Value :=
  if s.all (fun c => c == '_' || isDigitOf base c)
      && isGrouped (isDigitOf base) false s then
    some (integer base false s)
  else none

/-- The text after a run of decimal digits and underscores, in which
there is a digit. -/
def afterDigits? (s : List Char) : Option (List Char) :=
  let run := s.takeWhile fun c => c.isDigit || c == '_'
  if run.any Char.isDigit then some (s.drop run.length) else none

/-- The text after the fraction of a float, if it has one. -/
def afterFraction? : List Char → Option (List Char)
  | '.' :: rest => afterDigits? rest
  | s => some s

/-- The text after the exponent of a float, if it has one. -/
def afterExponent? : List Char → Option (List Char)
  | e :: rest =>
    if e == 'e' || e == 'E' then
      match rest with
      | '+' :: ds => afterDigits? ds
      | '-' :: ds => afterDigits? ds
      | ds => afterDigits? ds
    else some (e :: rest)
  | [] => some []

/-- Whether a number starts with a zero that its other digits make
useless. -/
def hasUselessZero (s : List Char) : Bool :=
  let run := s.takeWhile fun c => c.isDigit || c == '_'
  s.head? == some '0' && 1 < (ungrouped run).length

/-- The value of a float in plain notation. One that is out of range has
none. -/
def plainFloat (s : List Char) : Value :=
  match Binary64.read? s with
  | some (.infinite _) | none => .float none
  | some x => .float (some x)

/-- **A float** without its sign: digits, then a fraction or an exponent
or both. -/
def float? (signed negative : Bool) (s : List Char) : Option Value := do
  let rest ← afterExponent? (← afterFraction? (← afterDigits? s))
  if rest.isEmpty && !hasUselessZero s
      && isGrouped Char.isDigit signed s then
    let sign := if negative then ['-'] else []
    return plainFloat (sign ++ ungrouped s)
  else none

/-- **A decimal number** without its sign. A point or an exponent makes
it a float. Of an integer with underscores only the characters beside
them are looked at, and any hexadecimal digit may stand there; if not all
of it is decimal digits, it has no number. -/
def decimal? (signed negative : Bool) (s : List Char) : Option Value :=
  let digits := s.takeWhile Char.isDigit
  let rest := s.drop digits.length
  if rest.any fun c => c == '.' || c == 'e' || c == 'E' then
    float? signed negative s
  else if rest.head? == some '_' then
    if s.head? != some '0' && isGrouped (isDigitOf 16) signed s then
      some (integer 10 negative s)
    else none
  else if rest.isEmpty && !digits.isEmpty && !hasUselessZero s then
    some (integer 10 negative s)
  else none

/-- A number with its sign taken off, if it is `signed`. -/
def unsigned? (signed negative : Bool) (s : List Char) : Option Value :=
  if s == ['i', 'n', 'f'] then some (.float (some (.infinite negative)))
  else if s == ['n', 'a', 'n'] then some (.float (some .nan))
  else decimal? signed negative s

/-- **A number.** Those of other bases have no sign. -/
def number? : List Char → Option Value
  | '0' :: 'x' :: rest => based? 16 rest
  | '0' :: 'o' :: rest => based? 8 rest
  | '0' :: 'b' :: rest => based? 2 rest
  | '-' :: rest => unsigned? true true rest
  | '+' :: rest => unsigned? true false rest
  | s => unsigned? false false s

/-- The number of days of a month. -/
def daysIn (year month : Nat) : Nat :=
  if month = 2 then
    if year % 4 = 0 ∧ (year % 100 ≠ 0 ∨ year % 400 = 0) then 29 else 28
  else if month = 4 ∨ month = 6 ∨ month = 9 ∨ month = 11 then 30
  else 31

/-- The number that a run of decimal digits of a given length is. -/
def fixedDigits? (len : Nat) (s : List Char) : Option Nat :=
  if s.length = len then readNumeral? 10 s else none

/-- A calendar date such as `1979-05-27`. -/
def isDate (s : List Char) : Bool :=
  match fixedDigits? 4 (s.take 4), fixedDigits? 2 ((s.drop 5).take 2),
      fixedDigits? 2 (s.drop 8) with
  | some year, some month, some day =>
    s[4]? == some '-' && s[7]? == some '-' && 1 ≤ month && month ≤ 12
      && 1 ≤ day && day ≤ daysIn year month
  | _, _, _ => false

/-- The seconds of a time such as `:00` or `:07.5`, which may be left
out. -/
def isSeconds : List Char → Bool
  | [] => true
  | ':' :: rest =>
    match fixedDigits? 2 (rest.take 2), rest.drop 2 with
    | some second, [] => second ≤ 60
    | some second, '.' :: fraction =>
      second ≤ 60 && !fraction.isEmpty && fraction.all Char.isDigit
    | _, _ => false
  | _ => false

/-- A time of day such as `07:32:00` or `07:32`. -/
def isTime (s : List Char) : Bool :=
  match fixedDigits? 2 (s.take 2), fixedDigits? 2 ((s.drop 3).take 2) with
  | some hour, some minute =>
    s[2]? == some ':' && hour ≤ 23 && minute ≤ 59 && isSeconds (s.drop 5)
  | _, _ => false

/-- An offset from universal time such as `-07:00`. -/
def isOffset (s : List Char) : Bool :=
  match s with
  | [c] => c == 'Z' || c == 'z'
  | c :: rest =>
    match fixedDigits? 2 (rest.take 2), fixedDigits? 2 (rest.drop 3) with
    | some hour, some minute =>
      (c == '+' || c == '-') && rest[2]? == some ':' && hour ≤ 23
        && minute ≤ 59
    | _, _ => false
  | [] => false

/-- **A date, a time, or both.** A time with an offset has a date. -/
def isDatetime (s : List Char) : Bool :=
  if isDate s || isTime s then true
  else
    let rest := s.drop 11
    let time := rest.takeWhile fun c =>
      c.isDigit || c == ':' || c == '.'
    let offset := rest.drop time.length
    isDate (s.take 10)
      && (s[10]? == some 'T' || s[10]? == some 't' || s[10]? == some ' ')
      && isTime time && (offset.isEmpty || isOffset offset)

/-- Whether a character can belong to a scalar that is not a string. -/
def isScalarChar (c : Char) : Bool :=
  !" \t\r\n#,=[]\x7b\x7d\"'".toList.contains c

/-- **The run of characters of a scalar**, and the rest of the text. A
date may be followed by a time after one blank. -/
def scalarRun (s : List Char) : List Char × List Char :=
  let run := s.takeWhile isScalarChar
  let rest := s.dropWhile isScalarChar
  match rest with
  | ' ' :: c :: more =>
    if isDate run && c.isDigit then
      (run ++ ' ' :: (c :: more).takeWhile isScalarChar,
        (c :: more).dropWhile isScalarChar)
    else (run, rest)
  | _ => (run, rest)

/-- **What a run of characters means.** -/
def scalar? (run : List Char) : Option Value :=
  if run == "true".toList then some (.boolean true)
  else if run == "false".toList then some (.boolean false)
  else if isDatetime run then some (.datetime (String.ofList run))
  else number? run

end NtpQuery.Toml
