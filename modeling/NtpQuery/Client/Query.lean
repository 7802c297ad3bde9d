import NtpQuery.Client.Basic
import NtpQuery.Wire.Assembly

/-!
# Requests and their responses

`Client.query` sends a control request and puts the response together
from the datagrams that arrive. A request that nothing answers is sent
again as often as the defaults allow; once a fragment of the response
has arrived, a wait that runs out of time means that the response is
incomplete, and the request is not repeated.

Datagrams are received into a buffer that the caller lends. Only the
part that a datagram has just filled is read, so what the buffer held
before makes no difference.

Each datagram is first given a `Verdict`: it is foreign to the request
and ignored, it reports an error, or it carries a fragment.
-/

namespace NtpQuery.Client

variable {τ : Type} [Transport τ]

/-- **What a datagram means to a request.** -/
inductive Verdict where
  /-- It has nothing to do with the request. -/
  | foreign
  /-- It says that the server refuses the request. -/
  | refused (code : UInt8)
  /-- It carries a part of the response. -/
  | fragment (f : Fragment)
  deriving DecidableEq, Repr

/-- **What a datagram means** to the request with this operation and
sequence number. A datagram that cannot be read is foreign. The error
code is the high byte of the status word. -/
def verdict (opcode : Opcode) (sequence : UInt16) (datagram : Bytes) :
    Verdict :=
  match Fragment.decode datagram with
  | .error _ => .foreign
  | .ok f =>
    let h := f.header
    if !h.response || h.sequence != sequence || h.opcode != opcode.code then
      .foreign
    else if h.error then .refused (UInt8.ofNat (h.status.toNat / 256))
    else .fragment f

/-- What a failed wait means when these fragments have arrived. -/
def waitFailure (a : Assembly) (e : NetError) : ClientError :=
  if e.isTimeout then
    if a.isEmpty then .timeout else .protocol .incomplete
  else .net e

/-- **Receiving until the response is complete**, or until something
goes wrong. The first fragment is awaited for the time `first`, the
others for the time `further`. -/
def collect (opcode : Opcode) (sequence : UInt16) (first further : UInt64)
    (a : Assembly) (scratch : Bytes) (t : τ) :
    Except ClientError Response × Bytes × τ :=
  let answer := Transport.recv t scratch.length
    (if a.isEmpty then first else further)
  match _h : answer.1 with
  | .error e => (.error (waitFailure a e), scratch, answer.2)
  | .ok received =>
    let scratch := Bytes.overlay scratch received
    match verdict opcode sequence (scratch.take received.length) with
    | .foreign => collect opcode sequence first further a scratch answer.2
    | .refused code => (.error (.refused code), scratch, answer.2)
    | .fragment f =>
      match a.insert f with
      | .error e => (.error (.protocol e), scratch, answer.2)
      | .ok a =>
        if a.isComplete then (.ok a.response, scratch, answer.2)
        else collect opcode sequence first further a scratch answer.2
termination_by Transport.pending t
decreasing_by all_goals exact Transport.pending_recv_lt _h

/-- **Sending a request and receiving its response**, with so many
further attempts when nothing answers. -/
def attempt (opcode : Opcode) (sequence : UInt16) (first further : UInt64)
    (peer : SocketAddr) (request : Bytes) :
    (retries : Nat) → Bytes → τ → Except ClientError Response × Bytes × τ
  | retries, scratch, t =>
    match Transport.send t peer request with
    | (.error e, t) => (.error (.net e), scratch, t)
    | (.ok (), t) =>
      match collect opcode sequence first further .empty scratch t with
      | (.error .timeout, scratch, t) =>
        match retries with
        | 0 => (.error .timeout, scratch, t)
        | retries + 1 =>
          attempt opcode sequence first further peer request retries scratch t
      | answer => answer

/-- What a client operation that receives datagrams leaves behind: its
result, the buffer and the client. -/
structure Outcome (τ α : Type) where
  /-- The result. -/
  result : Except ClientError α
  /-- The buffer that datagrams were received into. -/
  scratch : Bytes
  /-- The client. -/
  client : Client τ

/-- **Asking the server.** The sequence number is drawn once the host is
known, so that every sending of the request carries the same number. -/
def query (w : World) (opcode : Opcode) (assid : UInt16) (data scratch : Bytes)
    (c : Client τ) : Outcome τ Response :=
  match serverAddress w c with
  | (.error e, c) => ⟨.error e, scratch, c⟩
  | (.ok peer, c) =>
    let c := c.modify State.drawSequence
    if 65536 ≤ data.length then
      ⟨.error (.argument .uncountableData), scratch, c⟩
    else
      let h := Header.request c.state.version opcode c.state.sequence assid
        (UInt16.ofNat data.length)
      match requestDatagram? h data with
      | none => ⟨.error (.argument (.dataTooLong data.length)), scratch, c⟩
      | some request =>
        let answer :=
          attempt opcode c.state.sequence c.state.timeout
            c.state.secondaryTimeout peer request c.defaults.retries.toNat
            scratch c.transport
        ⟨answer.1, answer.2.1, { c with transport := answer.2.2 }⟩

/-- **The entries of an association list**: four bytes each, the ID
before the status word. A list that is not made of whole entries cannot
be read. -/
def readAssociations : Bytes → Option (List Association)
  | [] => some []
  | a₁ :: a₂ :: s₁ :: s₂ :: rest =>
    (readAssociations rest).map
      (⟨Bytes.word a₁ a₂, Bytes.word s₁ s₂⟩ :: ·)
  | _ => none

/-- **Reading the server's list of associations** anew. If that fails,
the list stays as it was. -/
def refresh (w : World) (scratch : Bytes) (c : Client τ) : Outcome τ Unit :=
  let o := query w .readStatus 0 [] scratch c
  match o.result with
  | .error e => ⟨.error e, o.scratch, o.client⟩
  | .ok response =>
    match readAssociations response.data with
    | none =>
      ⟨.error (.protocol (.raggedAssociations response.data.length)),
        o.scratch, o.client⟩
    | some list =>
      ⟨.ok (), o.scratch, o.client.modify fun s =>
        { s with associations := list }⟩

end NtpQuery.Client
