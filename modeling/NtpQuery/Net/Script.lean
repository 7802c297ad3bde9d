import NtpQuery.Net.Exchange
import NtpQuery.Wire.Fragment

/-!
# Scripted peers

A `Script` is a peer that answers requests by rules. Each request takes
the first rule that fits its operation and association and is not used
up, and the events of that rule decide what arrives and whether sending
fails. A request that no rule fits is left without an answer.
-/

namespace NtpQuery

namespace Script

/-- **How the header of a reply differs** from what the request calls
for. A field that is not given is copied from the request, and a count
that is not given is the length of the payload. -/
structure Stamp where
  /-- The version. -/
  version : Option UInt8 := none
  /-- The operation. -/
  opcode : Option UInt8 := none
  /-- The association. -/
  assid : Option UInt16 := none
  /-- The R bit. -/
  response : Bool := true
  /-- The E bit. -/
  error : Bool := false
  /-- The status word. -/
  status : UInt16 := 0
  /-- What is added to the sequence number. -/
  sequenceShift : UInt16 := 0
  /-- The count. -/
  count : Option UInt16 := none

/-- One thing that a reply brings about. -/
inductive Event where
  /-- A response, cut into fragments of at most `chunk` bytes. -/
  | response (stamp : Stamp) (chunk : Nat) (data : Bytes)
  /-- A single fragment. -/
  | fragment (stamp : Stamp) (offset : UInt16) (more : Bool) (data : Bytes)
  /-- A datagram as it is. -/
  | raw (datagram : Bytes)
  /-- A failure of the receive operation. -/
  | failure (error : NetError)
  /-- A failure of the send operation; nothing after it happens. -/
  | refusal (error : NetError)

/-- **A rule for answering requests.** -/
structure Rule where
  /-- The operation that the rule is for; any, if not given. -/
  opcode : Option UInt8
  /-- The association that the rule is for; any, if not given. -/
  assid : Option UInt16
  /-- How often the rule may be taken; without limit, if not given. -/
  times : Option Nat
  /-- What happens when it is taken. -/
  reply : List Event
  /-- How often it has been taken. -/
  taken : Nat := 0

namespace Stamp

/-- The header of a reply to a request. -/
def header (s : Stamp) (request : Header) : Header where
  version := s.version.getD request.version
  response := s.response
  error := s.error
  more := false
  opcode := s.opcode.getD request.opcode
  sequence := request.sequence + s.sequenceShift
  status := s.status
  assid := s.assid.getD request.assid
  offset := 0
  count := 0

/-- The datagram of a fragment, with the count that the stamp gives. -/
def datagram (s : Stamp) (f : Fragment) : Bytes :=
  Fragment.encode
    { f with header := { f.header with
        count := s.count.getD f.header.count } }

end Stamp

/-- What an event makes arrive in reply to a request. -/
def Event.arrivals (request : Header) : Event → List Arrival
  | response s chunk data =>
    (Fragment.split (s.header request) chunk 0 data).map fun f =>
      .datagram (s.datagram f)
  | fragment s offset more data =>
    [.datagram (s.datagram
      (Fragment.place (s.header request) offset.toNat more data))]
  | raw datagram => [.datagram datagram]
  | failure error => [.failure error]
  | refusal _ => []

/-- What comes of the events of a reply. -/
def reaction (request : Header) : List Event → Reaction
  | [] => ⟨[], none⟩
  | .refusal error :: _ => ⟨[], some error⟩
  | e :: rest =>
    let r := reaction request rest
    ⟨e.arrivals request ++ r.arrivals, r.refusal⟩

namespace Rule

/-- Whether a rule fits a request and is not used up. -/
def fits (r : Rule) (request : Header) : Bool :=
  r.opcode.all (· == request.opcode) && r.assid.all (· == request.assid)
    && r.times.all (r.taken < ·)

/-- Takes the first rule that fits: its events, and the rules after
that. -/
def take (request : Header) : List Rule → List Event × List Rule
  | [] => ([], [])
  | r :: rest =>
    if r.fits request then
      (r.reply, { r with taken := r.taken + 1 } :: rest)
    else
      let (events, rest) := take request rest
      (events, r :: rest)

end Rule

end Script

/-- **A peer that answers by rules.** -/
structure Script where
  /-- The rules, in the order in which they are tried. -/
  rules : List Script.Rule

instance : Responder Script where
  react s _ datagram :=
    match Header.decode datagram with
    | .ok request =>
      let (events, rules) := Script.Rule.take request s.rules
      (Script.reaction request events, ⟨rules⟩)
    | .error _ => (⟨[], none⟩, s)

end NtpQuery
