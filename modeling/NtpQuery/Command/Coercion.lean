import NtpQuery.Command.Argument
import NtpQuery.Failure
import NtpQuery.World

/-!
# Reading arguments

The words after a keyword are read as the slots of its command say, from
left to right; the first that cannot be read ends it. Words beyond the
last slot are ignored.

Reading is mostly a matter of the word alone. Two kinds of argument look
further: an address may have to be looked up, and an index such as `&3`
selects an entry of the list of associations, which is read from the
server first if it is empty. What they need is the class `Surroundings`.
-/

namespace NtpQuery

open Text

/-- **What reading arguments may consult**, and the one thing it may
change: the list of associations, by reading it anew. -/
class Surroundings (κ : Type) where
  /-- The world, for its name resolver. -/
  world : κ → World
  /-- The family of addresses that hosts are looked up in. -/
  family : κ → AddressFamily
  /-- The port that goes with an address. -/
  port : κ → UInt16
  /-- The length of the list of associations. -/
  listLength : κ → Nat
  /-- The ID at a place of the list of associations. -/
  listEntry? : κ → Nat → Option UInt16
  /-- Reads the list of associations anew. If that fails, the list stays
  as it is. -/
  refresh : κ → κ

namespace Coercion

variable {κ : Type} [Surroundings κ]

/-- The surroundings with a list of associations that has been read from
the server if it was empty. -/
def ensureAssociations (k : κ) : κ :=
  if Surroundings.listLength k = 0 then Surroundings.refresh k else k

/-- The association ID that an index selects; an index beyond the end
selects the last. -/
def select (index : Nat) (k : κ) : Except IndexFault UInt16 :=
  let count := Surroundings.listLength k
  if count = 0 then .error .noAssociations
  else if index = 0 then .error .outOfRange
  else
    match Surroundings.listEntry? k (min index count - 1) with
    | some assid => .ok assid
    | none => .error .outOfRange

/-- **An association index**: the digits after the `&` of the word
`raw`. -/
def association (raw : String) (body : List Char) (k : κ) :
    Except Failure Argument × κ :=
  match readUnsigned? 10 UInt64.size body with
  | none => (.error (.unknownAssociation raw .unreadable), k)
  | some index =>
    let k := ensureAssociations k
    match select index k with
    | .ok assid => (.ok (.unsigned assid.toUInt64), k)
    | .error fault => (.error (.unknownAssociation raw fault), k)

/-- An unsigned number that is not an index. -/
def unsigned (raw : String) : Except Failure Argument :=
  match readUnsigned? 10 UInt64.size raw.toList with
  | some n => .ok (.unsigned (UInt64.ofNat n))
  | none => .error (.invalidUnsigned raw)

/-- A signed number. -/
def signed (raw : String) : Except Failure Argument :=
  match readSigned? (Nat.pow 2 63) raw.toList with
  | some n => .ok (.signed (Int64.ofInt n))
  | none => .error (.invalidSigned raw)

/-- An address, as the surroundings resolve it. -/
def address (raw : String) (k : κ) : Except Failure Argument :=
  match (Surroundings.world k).resolve (Surroundings.family k) raw with
  | some ip => .ok (.address ⟨ip, Surroundings.port k⟩)
  | none => .error (.invalidAddress raw)

/-- An IP version. -/
def ipVersion (raw : String) : Except Failure Argument :=
  match IpVersion.ofFlag? raw with
  | some v => .ok (.ipVersion v)
  | none => .error (.invalidIpVersion raw)

/-- **Reading one word** as an argument of a kind. -/
def coerce (kind : ArgumentKind) (raw : String) (k : κ) :
    Except Failure Argument × κ :=
  match kind with
  | .text => (.ok (.text raw), k)
  | .address => (address raw k, k)
  | .unsigned =>
    match raw.toList with
    | '&' :: body => association raw body k
    | _ => (unsigned raw, k)
  | .signed => (signed raw, k)
  | .ipVersion => (ipVersion raw, k)

/-- Reading words for slots, from left to right. -/
def coerceAll (keyword : String) :
    List Slot → List String → κ → Except Failure (List Argument) × κ
  | [], _, k => (.ok [], k)
  | slot :: _, [], k =>
    (if slot.required then .error (.tooFewArguments keyword) else .ok [], k)
  | slot :: slots, raw :: raws, k =>
    match coerce slot.kind raw k with
    | (.error e, k) => (.error e, k)
    | (.ok a, k) =>
      match coerceAll keyword slots raws k with
      | (.error e, k) => (.error e, k)
      | (.ok rest, k) => (.ok (a :: rest), k)

/-- **Reading the arguments of a command line** for the first four
slots. -/
def invocation (keyword : String) (slots : List Slot) (raws : List String)
    (k : κ) : Except Failure Invocation × κ :=
  match coerceAll keyword (slots.take maxSlots) raws k with
  | (.error e, k) => (.error e, k)
  | (.ok arguments, k) => (.ok ⟨keyword, arguments⟩, k)

end Coercion

end NtpQuery
