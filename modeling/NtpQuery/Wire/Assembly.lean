import NtpQuery.Text.Utf8
import NtpQuery.Wire.Fragment

/-!
# Reassembly

A response is put together from its fragments, which arrive in any
order and may arrive more than once. An `Assembly` holds the payloads
that have been accepted, in the order of their offsets, and the end that
the fragment without the M bit announced. It is complete when the
payloads follow one another without a gap from offset zero to that end.

A fragment at the offset of a held payload counts as a duplicate and is
dropped. One that runs into a neighbour is refused, and so is a second
final fragment; a refused fragment leaves the assembly as it was.
-/

namespace NtpQuery

open Text

/-- **A complete response.** -/
structure Response where
  /-- The status word. -/
  status : UInt16
  /-- The association that the response is about. -/
  assid : UInt16
  /-- The payload. -/
  data : Bytes
  deriving DecidableEq, Repr

/-- The payload as text. -/
def Response.text (r : Response) : List Char :=
  decodeLossy r.data

/-- A payload at its place in the response. -/
structure Piece where
  /-- The place of the first byte. -/
  offset : Nat
  /-- The payload. -/
  data : Bytes
  deriving DecidableEq, Repr

/-- The place after the last byte. -/
def Piece.stop (p : Piece) : Nat :=
  p.offset + p.data.length

/-- **The fragments of one response** that have arrived. -/
structure Assembly where
  /-- The accepted payloads, by increasing offset. -/
  pieces : List Piece
  /-- The end of the response, once its final fragment has arrived. -/
  stop : Option Nat
  /-- The status word of the last accepted fragment. -/
  status : UInt16
  /-- The association of the last accepted fragment. -/
  assid : UInt16
  deriving DecidableEq, Repr

namespace Assembly

/-- The assembly before any fragment has arrived. -/
def empty : Assembly := ⟨[], none, 0, 0⟩

/-- Whether no fragment has been accepted. -/
def isEmpty (a : Assembly) : Bool :=
  a.pieces.isEmpty

/-- The assembly with one more payload, between those in front of it and
those behind it. -/
def accept (a : Assembly) (f : Fragment) (before after : List Piece) :
    Assembly :=
  let piece : Piece := ⟨f.header.offset.toNat, f.data⟩
  { pieces := before ++ piece :: after
    stop := if f.header.more then a.stop else some piece.stop
    status := f.header.status
    assid := f.header.assid }

/-- **Inserting a fragment.** One at the offset of a held payload is
dropped. Any other is compared with the payload behind it, then with the
payload in front of it, and then with the end. -/
def insert (a : Assembly) (f : Fragment) : Except ProtocolError Assembly :=
  let offset := f.header.offset.toNat
  let stop := offset + f.data.length
  let before := a.pieces.takeWhile (·.offset < offset)
  let after := a.pieces.dropWhile (·.offset < offset)
  if after.head?.any (·.offset == offset) then .ok a
  else
    match after.head?.filter (·.offset < stop) with
    | some next => .error (.overlap offset next.offset)
    | none =>
      match before.getLast?.filter (offset < ·.stop) with
      | some previous => .error (.overlap offset previous.offset)
      | none =>
        if !f.header.more && a.stop.isSome then .error .twoFinals
        else .ok (a.accept f before after)

/-- Whether payloads follow one another without a gap from `start` to
`stop`. -/
def tiles (start stop : Nat) : List Piece → Bool
  | [] => start == stop
  | p :: rest => p.offset == start && tiles p.stop stop rest

/-- Whether the whole response has arrived. -/
def isComplete (a : Assembly) : Bool :=
  a.stop.any fun stop => tiles 0 stop a.pieces

/-- The response that the accepted payloads make up. -/
def response (a : Assembly) : Response where
  status := a.status
  assid := a.assid
  data := a.pieces.flatMap (·.data)

@[simp] theorem isEmpty_empty : empty.isEmpty = true := rfl

@[simp] theorem isComplete_empty : empty.isComplete = false := rfl

/-- An accepted fragment is held. -/
theorem isEmpty_accept (a : Assembly) (f : Fragment)
    (before after : List Piece) :
    (a.accept f before after).isEmpty = false := by
  simp [accept, isEmpty]

end Assembly

end NtpQuery
