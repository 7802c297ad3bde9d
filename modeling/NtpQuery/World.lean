import NtpQuery.Net.Literal

/-!
# The world around a client

What a client reads from its surroundings besides datagrams: the time
of day, the answers of the name resolver, the limit on open files, which
sizes a session's receive buffer, and whether there is memory for a block
of a given size.
-/

namespace NtpQuery

/-- **The limit on the number of open files** of the process. -/
inductive FileLimit where
  /-- So many files. -/
  | files (count : Nat)
  /-- There is no limit. -/
  | unlimited
  /-- The limit cannot be read. -/
  | unreadable
  deriving DecidableEq, Repr

/-- The limit that a number of 64 bits stands for; the greatest of them
says that there is none. -/
def FileLimit.ofNumber (n : Nat) : FileLimit :=
  if n = UInt64.size - 1 then unlimited else files n

/-- Whether a block of so many bytes fits the address space of a
process. -/
def fitsAddressSpace (size : Nat) : Bool :=
  size ≤ Nat.pow 2 47

/-- **The surroundings of a client.** -/
structure World where
  /-- The time of day, in seconds since the Unix epoch. -/
  now : Int
  /-- The addresses of a host name, in the resolver's order; none for a
  name that it does not know. -/
  hosts : String → List IpAddr
  /-- The limit on open files. -/
  openFiles : FileLimit
  /-- Whether there is memory for a block of so many bytes. -/
  memory : Nat → Bool := fitsAddressSpace

namespace World

/-- The answer of the name resolver. No host has a name with a NUL. -/
def lookup (w : World) (name : String) : List IpAddr :=
  if '\x00' ∈ name.toList then [] else w.hosts name

/-- **The address of a host**, as an address family allows: a literal
stands for itself and is not looked up; of a name, the first answer of
the family counts. -/
def resolve (w : World) (family : AddressFamily) (name : String) :
    Option IpAddr :=
  match IpAddr.ofText? name with
  | some ip => if family.includes ip then some ip else none
  | none => (w.lookup name).find? family.includes

end World

end NtpQuery
