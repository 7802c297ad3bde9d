import NtpQuery.Net.Address

/-!
# Address literals

Reading IP addresses that are written as text, with or without a port.
An IPv4 address is four decimal octets without leading zeros. An IPv6
address is up to eight hexadecimal groups, where one `::` may stand for
a run of zero groups and the last two groups may be written as an IPv4
address. Nothing may follow the literal.

A reader takes what it needs from the front of a text and answers with
the value and the rest.
-/

namespace NtpQuery.Literal

open Text

/-- The rest of the text after the character `c`. -/
def skip? (c : Char) : List Char → Option (List Char)
  | d :: rest => if d = c then some rest else none
  | [] => none

/-- The longest run of digits of a base at the front of a text, as a
number below `bound`; the digits are counted too. -/
def number? (base bound : Nat) (s : List Char) :
    Option ((Nat × Nat) × List Char) :=
  let isDigit := fun c => (digitValue? base c).isSome
  let ds := s.takeWhile isDigit
  match readNumeral? base ds with
  | some n =>
    if n < bound then some ((n, ds.length), s.dropWhile isDigit) else none
  | none => none

/-- A decimal octet: at most three digits, and no zero in front of
another digit. -/
def octet? (s : List Char) : Option (UInt8 × List Char) :=
  match number? 10 256 s with
  | some ((n, len), rest) =>
    if len ≤ 3 ∧ (s.head? ≠ some '0' ∨ len = 1) then
      some (UInt8.ofNat n, rest)
    else none
  | none => none

/-- Four octets with points between them. -/
def ipv4? (s : List Char) :
    Option (Vector UInt8 4 × List Char) := do
  let (a, s) ← octet? s
  let (b, s) ← octet? (← skip? '.' s)
  let (c, s) ← octet? (← skip? '.' s)
  let (d, s) ← octet? (← skip? '.' s)
  return (#v[a, b, c, d], s)

/-- A hexadecimal group of at most four digits. -/
def group? (s : List Char) : Option (UInt16 × List Char) :=
  match number? 16 65536 s with
  | some ((n, len), rest) =>
    if len ≤ 4 then some (UInt16.ofNat n, rest) else none
  | none => none

/-- The text of the next group: at the front of a row of groups the
text itself, later on the text after a colon. -/
def separated? (first : Bool) (s : List Char) : Option (List Char) :=
  if first then some s else skip? ':' s

/-- The two groups of an IPv4 address. -/
def groupsOfIpv4 (v : Vector UInt8 4) : List UInt16 :=
  [UInt16.ofNat (256 * v[0].toNat + v[1].toNat),
    UInt16.ofNat (256 * v[2].toNat + v[3].toNat)]

/-- **A row of groups**: at most `limit` of them with colons between
them. An IPv4 address counts as two groups and ends the row. The answer
says whether the row ended in one. -/
def row : (limit : Nat) → (first : Bool) → List Char →
    (List UInt16 × Bool) × List Char
  | 0, _, s => (([], false), s)
  | limit + 1, first, s =>
    match (separated? first s).bind fun t =>
        if limit = 0 then none else ipv4? t with
    | some (v, rest) => ((groupsOfIpv4 v, true), rest)
    | none =>
      match (separated? first s).bind group? with
      | some (g, rest) =>
        let ((gs, dottedEnd), rest) := row limit false rest
        ((g :: gs, dottedEnd), rest)
      | none => (([], false), s)

/-- Eight groups, if the list has eight. -/
def eight? (groups : List UInt16) : Option (Vector UInt16 8) :=
  if h : groups.length = 8 then some ⟨groups.toArray, by simpa using h⟩
  else none

/-- Eight groups, or fewer with `::` in place of the missing ones. -/
def ipv6? (s : List Char) :
    Option (Vector UInt16 8 × List Char) :=
  let ((head, dottedEnd), rest) := row 8 true s
  if head.length = 8 then (eight? head).map fun v => (v, rest)
  else if dottedEnd then none
  else do
    let rest ← skip? ':' (← skip? ':' rest)
    let ((tail, _), rest) := row (7 - head.length) true rest
    let zeros := List.replicate (8 - head.length - tail.length) 0
    let v ← eight? (head ++ zeros ++ tail)
    return (v, rest)

/-- A decimal port; leading zeros are allowed. -/
def port? (s : List Char) : Option (UInt16 × List Char) :=
  match number? 10 65536 s with
  | some ((n, _), rest) => some (UInt16.ofNat n, rest)
  | none => none

/-- The rest of the text after an optional zone number. -/
def zone? (s : List Char) : Option (List Char) :=
  match s with
  | '%' :: rest =>
    match number? 10 UInt32.size rest with
    | some (_, rest) => some rest
    | none => none
  | _ => some s

/-- The value of a reading that leaves nothing. -/
def whole {α : Type} : Option (α × List Char) → Option α
  | some (a, []) => some a
  | _ => none

end Literal

namespace IpAddr

open Literal

/-- **The address a text is the literal of**, if any. -/
def ofText? (text : String) : Option IpAddr :=
  let s := text.toList
  ((whole (ipv4? s)).map v4).orElse fun _ => (whole (ipv6? s)).map v6

end IpAddr

namespace SocketAddr

open Literal

/-- An IPv4 address with its port. -/
def ofDotted? (s : List Char) : Option SocketAddr := do
  let (v, s) ← ipv4? s
  let (p, s) ← port? (← skip? ':' s)
  if s.isEmpty then return ⟨.v4 v, p⟩ else none

/-- An IPv6 address in brackets, with its port. -/
def ofBrackets? (s : List Char) : Option SocketAddr := do
  let (v, s) ← ipv6? (← skip? '[' s)
  let s ← zone? s
  let (p, s) ← port? (← skip? ':' (← skip? ']' s))
  if s.isEmpty then return ⟨.v6 v, p⟩ else none

/-- **The address and port a text is the literal of**, if any. -/
def ofText? (text : String) : Option SocketAddr :=
  (ofDotted? text.toList).orElse fun _ => ofBrackets? text.toList

end SocketAddr

end NtpQuery
