import NtpQuery.Text.Numeral

/-!
# Addresses

The addresses of servers: IPv4 and IPv6 addresses, a preference for one
of the two families, and the pair of an address and a port that a
datagram is sent to.

IPv6 addresses are written in the recommended short form: lower case,
no leading zeros, `::` in place of the first of the longest runs of at
least two zero groups, and a mapped IPv4 address in dotted form.
-/

namespace NtpQuery

open Text

/-- An IP address. -/
inductive IpAddr where
  /-- An IPv4 address, by its four octets. -/
  | v4 (octets : Vector UInt8 4)
  /-- An IPv6 address, by its eight groups. -/
  | v6 (groups : Vector UInt16 8)
  deriving DecidableEq, Repr

/-- An address and a port. The scope and the flow label that an IPv6 address
can come with are left out. A literal has none; answers of a resolver that
differ in nothing else count as one address, so a client that turns from one
of them to the other stays with its server. -/
structure SocketAddr where
  /-- The address. -/
  ip : IpAddr
  /-- The port. -/
  port : UInt16
  deriving DecidableEq, Repr

/-- **A preference for an address family.** -/
inductive AddressFamily where
  /-- Both families will do. -/
  | any
  /-- IPv4 only. -/
  | v4
  /-- IPv6 only. -/
  | v6
  deriving DecidableEq, Repr

namespace AddressFamily

/-- Whether an address belongs to the family. -/
def includes : AddressFamily → IpAddr → Bool
  | any, _ => true
  | v4, .v4 _ => true
  | v6, .v6 _ => true
  | _, _ => false

@[simp] theorem includes_any (ip : IpAddr) : any.includes ip = true := rfl

end AddressFamily

namespace IpAddr

/-- The address in dotted form, from its octets. -/
def dotted (octets : List UInt8) : String :=
  ".".intercalate (octets.map fun o => decimal o.toNat)

/-- The groups in hexadecimal, with colons between them. -/
def colons (groups : List UInt16) : String :=
  ":".intercalate (groups.map fun g => hexadecimal 1 g.toNat)

/-- The length of the run of zero groups at the front. -/
def zeroRun (groups : List UInt16) : Nat :=
  (groups.takeWhile (· == 0)).length

/-- The start and the length of the first of the longest runs of zero
groups, where `start` groups come before the given ones. -/
def longestZeroRun : Nat → List UInt16 → Nat × Nat
  | start, [] => (start, 0)
  | start, g :: rest =>
    let here := zeroRun (g :: rest)
    let later := longestZeroRun (start + 1) rest
    if here < later.2 then later else (start, here)

/-- The two octets of a group. -/
def octetsOfGroup (g : UInt16) : List UInt8 :=
  [UInt8.ofNat (g.toNat / 256), UInt8.ofNat (g.toNat % 256)]

/-- The written form of an IPv6 address. -/
def shortForm (groups : List UInt16) : String :=
  if groups.take 6 == [0, 0, 0, 0, 0, 0xFFFF] then
    "::ffff:" ++ dotted ((groups.drop 6).flatMap octetsOfGroup)
  else
    let run := longestZeroRun 0 groups
    if run.2 < 2 then colons groups
    else colons (groups.take run.1) ++ "::"
      ++ colons (groups.drop (run.1 + run.2))

/-- The written form of an address. -/
def toText : IpAddr → String
  | v4 octets => dotted octets.toList
  | v6 groups => shortForm groups.toList

end IpAddr

/-- The written form of an address with its port; an IPv6 address
stands in brackets. -/
def SocketAddr.toText (a : SocketAddr) : String :=
  match a.ip with
  | .v4 _ => a.ip.toText ++ ":" ++ decimal a.port.toNat
  | .v6 _ => "[" ++ a.ip.toText ++ "]:" ++ decimal a.port.toNat

end NtpQuery
