import NtpQuery.Net.Address

/-!
# Arguments of commands

A command declares a slot for each of its positional arguments, at most
four. A slot says what kind of argument it takes and whether it must be
given. An `Invocation` is a command line after its arguments have been
read as their slots say.
-/

namespace NtpQuery

/-- **A kind of argument.** -/
inductive ArgumentKind where
  /-- Text, taken as it is. -/
  | text
  /-- A host name or an address. -/
  | address
  /-- An unsigned number, or `&N` for the N-th association. -/
  | unsigned
  /-- A signed number. -/
  | signed
  /-- One of the flags `-4` and `-6`. -/
  | ipVersion
  deriving DecidableEq, Repr

/-- **The place of a positional argument.** -/
structure Slot where
  /-- The kind of argument that it takes. -/
  kind : ArgumentKind
  /-- Whether the argument must be given. -/
  required : Bool
  deriving DecidableEq, Repr

/-- The greatest number of positional arguments. -/
def maxSlots : Nat := 4

/-- A version of the Internet Protocol. -/
inductive IpVersion where
  /-- Version 4. -/
  | v4
  /-- Version 6. -/
  | v6
  deriving DecidableEq, Repr

namespace IpVersion

/-- The addresses of a version. -/
def family : IpVersion → AddressFamily
  | v4 => .v4
  | v6 => .v6

/-- The version that a flag stands for. -/
def ofFlag? (flag : String) : Option IpVersion :=
  if flag = "-4" then some v4
  else if flag = "-6" then some v6
  else none

end IpVersion

/-- **An argument** that has been read. -/
inductive Argument where
  /-- Text. -/
  | text (value : String)
  /-- An address with a port. -/
  | address (value : SocketAddr)
  /-- An unsigned number, or the association ID that `&N` selected. -/
  | unsigned (value : UInt64)
  /-- A signed number. -/
  | signed (value : Int64)
  /-- A version of the Internet Protocol. -/
  | ipVersion (value : IpVersion)
  deriving DecidableEq

/-- The kind of an argument. -/
def Argument.kind : Argument → ArgumentKind
  | text _ => .text
  | address _ => .address
  | unsigned _ => .unsigned
  | signed _ => .signed
  | ipVersion _ => .ipVersion

/-- **A command line whose arguments have been read.** -/
structure Invocation where
  /-- The keyword as it was typed. -/
  keyword : String
  /-- The arguments, by position. -/
  arguments : List Argument
  deriving DecidableEq

namespace Invocation

/-- The text at a position. -/
def text? (i : Invocation) (position : Nat) : Option String :=
  match i.arguments[position]? with
  | some (.text value) => some value
  | _ => none

/-- The unsigned number at a position. -/
def unsigned? (i : Invocation) (position : Nat) : Option UInt64 :=
  match i.arguments[position]? with
  | some (.unsigned value) => some value
  | _ => none

/-- The signed number at a position. -/
def signed? (i : Invocation) (position : Nat) : Option Int64 :=
  match i.arguments[position]? with
  | some (.signed value) => some value
  | _ => none

/-- The IP version at a position. -/
def ipVersion? (i : Invocation) (position : Nat) : Option IpVersion :=
  match i.arguments[position]? with
  | some (.ipVersion value) => some value
  | _ => none

/-- The texts from a position on, in order. -/
def textTail (i : Invocation) (position : Nat) : List String :=
  (i.arguments.drop position).filterMap fun
    | .text value => some value
    | _ => none

end Invocation

end NtpQuery
