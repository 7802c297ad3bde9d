import NtpQuery.Wire.Header

/-!
# Fragments

A response comes in fragments, one to a datagram. `Fragment.decode`
splits a datagram into its header and the payload that the header
counts; bytes after the payload (padding, an authenticator) are not
looked at. On the other side `Fragment.split` cuts a payload into the
fragments that carry it, and `Fragment.encode` writes one as a datagram.
-/

namespace NtpQuery

/-- **A datagram, split** into header and payload. -/
structure Fragment where
  /-- The header. -/
  header : Header
  /-- The payload. -/
  data : Bytes
  deriving DecidableEq, Repr

namespace Fragment

/-- **The fragment in a datagram.** The payload that the header counts
must be there in full, and must not be longer than one message
carries. -/
def decode (datagram : Bytes) : Except ProtocolError Fragment :=
  match Header.decode datagram with
  | .error e => .error e
  | .ok header =>
    let payload := datagram.drop headerLength
    let count := header.count.toNat
    if count ≤ payload.length ∧ count ≤ maxPayload then
      .ok ⟨header, payload.take count⟩
    else .error (.badCount count payload.length)

/-- The datagram of a fragment. -/
def encode (f : Fragment) : Bytes :=
  f.header.encode ++ f.data

/-- The fragment with this payload at this place of a response; all
else is as in the given header. -/
def place (h : Header) (offset : Nat) (more : Bool) (data : Bytes) :
    Fragment where
  header := { h with
    more := more
    offset := UInt16.ofNat offset
    count := UInt16.ofNat data.length }
  data := data

/-- **Cutting a payload into fragments** of at most `chunk` bytes, the
first of them at `offset`. All but the last have the M bit; an empty
payload is one empty fragment. A chunk of zero bytes stands for no
limit. -/
def split (h : Header) (chunk offset : Nat) (data : Bytes) :
    List Fragment :=
  if _h : chunk = 0 ∨ data.length ≤ chunk then
    [place h offset false data]
  else
    place h offset true (data.take chunk)
      :: split h chunk (offset + chunk) (data.drop chunk)
termination_by data.length
decreasing_by
  simp only [List.length_drop]
  omega

end Fragment

end NtpQuery
