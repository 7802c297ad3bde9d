import NtpQuery.Text.Numeral

/-!
# Violations of the protocol

What can be wrong with a datagram, with a set of fragments, or with the
response they make up.
-/

namespace NtpQuery

open Text

/-- **A way in which a server breaks the control protocol.** -/
inductive ProtocolError where
  /-- A datagram is shorter than a header. -/
  | tooShort (got : Nat)
  /-- A datagram is of another NTP mode. -/
  | unexpectedMode (mode : Nat)
  /-- A fragment claims more payload than it carries, or than any
  fragment may. -/
  | badCount (claimed carried : Nat)
  /-- Two fragments claim the same bytes of the response. -/
  | overlap (offset neighbour : Nat)
  /-- Two fragments claim to end the response. -/
  | twoFinals
  /-- Fragments of the response failed to arrive. -/
  | incomplete
  /-- A list of associations is not made of whole entries. -/
  | raggedAssociations (length : Nat)
  /-- Any other violation. -/
  | other (message : String)
  deriving DecidableEq, Repr

/-- The text of a violation. -/
def ProtocolError.message : ProtocolError → String
  | tooShort got =>
    "datagram too short: needed 12 bytes, got " ++ decimal got
  | unexpectedMode mode => "unexpected mode " ++ decimal mode
  | badCount claimed carried =>
    "fragment claims " ++ decimal claimed ++ " bytes, carries "
      ++ decimal carried
  | overlap offset neighbour =>
    "fragment at " ++ decimal offset ++ " overlaps fragment at "
      ++ decimal neighbour
  | twoFinals => "response has two final fragments"
  | incomplete => "response incomplete"
  | raggedAssociations length =>
    "association list length " ++ decimal length ++ " not a multiple of 4"
  | other text => text

end NtpQuery
