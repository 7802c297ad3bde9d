import NtpQuery.Client.Query
import NtpQuery.Proofs.Wire.Codec

/-!
# The host of a request

A request goes to the current host. Without one, the default host is
chosen first, and that is the only thing that finding an address can
change: a client that has a host keeps everything, and a host that
cannot be resolved changes nothing (`Client.serverAddress_cases`).
Choosing a host where there was none closes the transport, so whatever
was waiting in it is gone.

Behind the address, a query is an attempt with the next sequence number
(`Client.query_eq_attempt`), unless the data of the request do not fit a
message.
-/

namespace NtpQuery

namespace Client

variable {τ : Type} [Transport τ]

/-- **The two ways of turning to a server.** A server with the address of
the current one gets the list of associations and the transport as they
are; any other gets an empty list and a closed transport. -/
theorem turnTo_cases (c : Client τ) (host : Host) (family : AddressFamily) :
    (c.state.host.map (·.addr) = some host.addr
        ∧ c.turnTo host family = { c with
          state := { c.state with family := family, host := some host } })
      ∨ (c.state.host.map (·.addr) ≠ some host.addr
        ∧ c.turnTo host family = { c with
          state := { c.state with
            family := family
            host := some host
            associations := [] }
          transport := Transport.close c.transport }) := by
  unfold turnTo
  by_cases hsame : c.state.host.map (·.addr) = some host.addr
  · rw [if_pos hsame]
    exact Or.inl ⟨hsame, rfl⟩
  · rw [if_neg hsame]
    exact Or.inr ⟨hsame, rfl⟩

/-- The client with the default host chosen at an address, where there
was no host. -/
def withDefaultHost (c : Client τ) (addr : SocketAddr) : Client τ :=
  { c with
    state := { c.state with
      host := some ⟨c.defaults.host, addr⟩
      associations := [] }
    transport := Transport.close c.transport }

/-- **The three ways of finding an address.** -/
theorem serverAddress_cases (w : World) (c : Client τ) :
    (∃ host, c.state.host = some host
        ∧ c.serverAddress w = (.ok host.addr, c))
      ∨ (c.state.host = none
        ∧ ∃ addr, c.serverAddress w = (.ok addr, c.withDefaultHost addr))
      ∨ (c.state.host = none ∧ ∃ e, c.serverAddress w = (.error e, c)) := by
  unfold serverAddress
  cases hhost : c.state.host with
  | some host => exact Or.inl ⟨host, rfl, rfl⟩
  | none =>
    refine Or.inr ?_
    cases hloc : c.locate w c.defaults.host c.state.family with
    | error e => exact Or.inr ⟨rfl, e, rfl⟩
    | ok addr =>
      refine Or.inl ⟨rfl, addr, ?_⟩
      dsimp only
      -- without a host, every address is a new one
      rw [turnTo, hhost, if_neg (by simp)]
      rfl

/-- **What finding an address leaves alone**: everything but the host,
the associations and the transport. -/
theorem serverAddress_frame (w : World) (c : Client τ) :
    (c.serverAddress w).2.state.sequence = c.state.sequence
      ∧ (c.serverAddress w).2.state.version = c.state.version
      ∧ (c.serverAddress w).2.state.timeout = c.state.timeout
      ∧ (c.serverAddress w).2.state.secondaryTimeout
        = c.state.secondaryTimeout
      ∧ (c.serverAddress w).2.defaults = c.defaults := by
  rcases serverAddress_cases w c with
    ⟨host, -, h⟩ | ⟨-, addr, h⟩ | ⟨-, e, h⟩
  all_goals rw [h]; exact ⟨rfl, rfl, rfl, rfl, rfl⟩

/-- The transport is closed if a host had to be chosen, and else it is
as it was. -/
theorem serverAddress_transport (w : World) (c : Client τ) :
    (c.serverAddress w).2.transport = c.transport
      ∨ (c.serverAddress w).2.transport
        = Transport.close c.transport := by
  rcases serverAddress_cases w c with
    ⟨host, -, h⟩ | ⟨-, addr, h⟩ | ⟨-, e, h⟩
  · exact Or.inl (by rw [h])
  · exact Or.inr (by rw [h]; rfl)
  · exact Or.inl (by rw [h])

/-- **The address that is found** is that of the client's host then. -/
theorem serverAddress_host {w : World} {c : Client τ} {peer : SocketAddr}
    (h : (c.serverAddress w).1 = .ok peer) :
    ∃ host, (c.serverAddress w).2.state.host = some host
      ∧ host.addr = peer := by
  rcases serverAddress_cases w c with
    ⟨host, hsome, heq⟩ | ⟨-, addr, heq⟩ | ⟨-, e, heq⟩
  · rw [heq] at h ⊢
    exact ⟨host, hsome, Except.ok.inj h⟩
  · rw [heq] at h ⊢
    exact ⟨_, rfl, Except.ok.inj h⟩
  · rw [heq] at h
    exact nomatch h

/-- An address is missing only if the default host has none. -/
theorem serverAddress_error {w : World} {c : Client τ} {e : ClientError}
    (h : (c.serverAddress w).1 = .error e) :
    e = .noHost c.defaults.host := by
  unfold serverAddress locate at h
  split at h
  · exact nomatch h
  · split at h
    next e' he' =>
      obtain rfl := Except.error.inj h
      split at he'
      · exact nomatch he'
      · exact (Except.error.inj he').symm
    next => exact nomatch h

/-- A client that finds no address is as it was. -/
theorem serverAddress_of_error {w : World} {c : Client τ} {e : ClientError}
    (h : (c.serverAddress w).1 = .error e) :
    c.serverAddress w = (.error e, c) := by
  rcases serverAddress_cases w c with
    ⟨host, -, heq⟩ | ⟨-, addr, heq⟩ | ⟨-, e', heq⟩
  · exact absurd ((congrArg Prod.fst heq).symm.trans h) (by simp)
  · exact absurd ((congrArg Prod.fst heq).symm.trans h) (by simp)
  · obtain rfl := Except.error.inj ((congrArg Prod.fst heq).symm.trans h)
    exact heq

/-- **The datagram of the next request**, if its data fit a message. -/
def nextRequest? (c : Client τ) (opcode : Opcode) (assid : UInt16)
    (data : Bytes) : Option Bytes :=
  requestDatagram?
    (Header.request c.state.version opcode (c.state.sequence + 1) assid
      (UInt16.ofNat data.length)) data

variable {w : World} {opcode : Opcode} {assid : UInt16}
variable {data scratch : Bytes} {c : Client τ}

omit [Transport τ] in
/-- The next request carries the next sequence number and its
operation. -/
theorem decode_nextRequest {request : Bytes}
    (h : c.nextRequest? opcode assid data = some request) :
    ∃ header, Header.decode request = .ok header
      ∧ header.sequence = c.state.sequence + 1
      ∧ header.opcode = opcode.code := by
  unfold nextRequest? requestDatagram? at h
  split at h
  · obtain rfl := Option.some.inj h
    rw [List.append_assoc, Header.decode_encode]
    exact ⟨_, rfl, rfl, Fragment.narrow_code opcode⟩
  · exact absurd h (by simp)

omit [Transport τ] in
/-- Data that fit a message have a request. -/
theorem exists_nextRequest (c : Client τ) (opcode : Opcode)
    (assid : UInt16) (hdata : data.length ≤ maxPayload) :
    ∃ request, c.nextRequest? opcode assid data = some request := by
  unfold nextRequest? requestDatagram?
  rw [if_pos hdata]
  exact ⟨_, rfl⟩

omit [Transport τ] in
/-- Longer data have none. -/
theorem nextRequest_eq_none_iff :
    c.nextRequest? opcode assid data = none ↔ maxPayload < data.length := by
  unfold nextRequest? requestDatagram?
  by_cases hlen : data.length ≤ maxPayload
  · rw [if_pos hlen]
    exact iff_of_false nofun (Nat.not_lt_of_le hlen)
  · rw [if_neg hlen]
    exact iff_of_true rfl (Nat.lt_of_not_le hlen)

/-- **A query is an attempt** with the next sequence number, once the
host is known and the data fit a message. -/
theorem query_eq_attempt {peer : SocketAddr} {request : Bytes}
    (hpeer : (c.serverAddress w).1 = .ok peer)
    (hrequest : c.nextRequest? opcode assid data = some request) :
    c.query w opcode assid data scratch =
      let found := (c.serverAddress w).2.modify State.drawSequence
      let answer := attempt opcode (c.state.sequence + 1) c.state.timeout
        c.state.secondaryTimeout peer request c.defaults.retries.toNat
        scratch (c.serverAddress w).2.transport
      ⟨answer.1, answer.2.1, { found with transport := answer.2.2 }⟩ := by
  obtain ⟨hseq, hver, htime, hsec, hdef⟩ := serverAddress_frame w c
  unfold nextRequest? requestDatagram? at hrequest
  split at hrequest
  next hlen =>
    have hcount : ¬ 65536 ≤ data.length := fun hle =>
      absurd (Nat.le_trans hle hlen) (by decide)
    unfold query
    rw [show c.serverAddress w = (.ok peer, (c.serverAddress w).2) from
      Prod.ext hpeer rfl]
    dsimp only [modify, State.drawSequence]
    rw [if_neg hcount, requestDatagram?, if_pos hlen, hver, hseq, htime,
      hsec, hdef, Option.some.inj hrequest]
  · exact absurd hrequest (by simp)

/-- **A query without an address** to send to does nothing. -/
theorem query_of_no_address {e : ClientError}
    (h : (c.serverAddress w).1 = .error e) :
    c.query w opcode assid data scratch = ⟨.error e, scratch, c⟩ := by
  unfold query
  rw [serverAddress_of_error h]

/-- **A query whose data do not fit a message** draws its sequence number
and blames the data; it does no more. -/
theorem query_of_too_long {peer : SocketAddr}
    (hpeer : (c.serverAddress w).1 = .ok peer)
    (hrequest : c.nextRequest? opcode assid data = none) :
    ∃ e, c.query w opcode assid data scratch
      = ⟨.error (.argument e), scratch,
        (c.serverAddress w).2.modify State.drawSequence⟩ := by
  have hlen : ¬ data.length ≤ maxPayload :=
    Nat.not_le_of_lt (nextRequest_eq_none_iff.mp hrequest)
  unfold query
  rw [show c.serverAddress w = (.ok peer, (c.serverAddress w).2) from
    Prod.ext hpeer rfl]
  dsimp only
  unfold requestDatagram?
  rw [if_neg hlen]
  split
  · exact ⟨_, rfl⟩
  · exact ⟨_, rfl⟩

end Client

end NtpQuery
