import NtpQuery.Proofs.Client.Course
import NtpQuery.Proofs.Client.Keep
import NtpQuery.Proofs.Net.Trace

/-!
# What a query sends

A query sends one datagram, or none; if nothing answers, it sends the same
datagram again. What is in the datagram is decided before it is sent for
the first time: it goes to the client's host, its header has the client's
version and the query's own number, and the data of the request follow,
filled up with zeros (`Inquiry.Sends`). Nothing is signed.

A query whose data do not fit a message sends nothing at all.
-/

namespace NtpQuery

variable {τ : Type} [Transport τ]

/-- **An attempt sends** its request and nothing else, once or more often. -/
theorem Client.attempt_sends (peer : SocketAddr) (request : Bytes)
    (opcode : Opcode) (sequence : UInt16) (first further : UInt64)
    (retries : Nat) (scratch : Bytes) (t : Traced τ) :
    ∃ sent, (attempt opcode sequence first further peer request retries
        scratch t).2.2.sent = t.sent ++ sent
      ∧ ∀ x ∈ sent, x = (peer, request) := by
  refine attempt_keeps
    (I := fun u : Traced τ => ∃ sent, u.sent = t.sent ++ sent
      ∧ ∀ x ∈ sent, x = (peer, request))
    peer request ?_ ?_ opcode sequence first further retries scratch t
    ⟨[], (List.append_nil _).symm, fun x hx => absurd hx List.not_mem_nil⟩
  · rintro u ⟨sent, heq, hsame⟩
    refine ⟨sent ++ [(peer, request)], ?_, fun x hx => ?_⟩
    · rw [Traced.sent_send, heq, List.append_assoc]
    · rcases List.mem_append.mp hx with hx | hx
      · exact hsame x hx
      · exact List.mem_singleton.mp hx
  · rintro u size wait ⟨sent, heq, hsame⟩
    exact ⟨sent, (Traced.sent_recv u size wait).trans heq, hsame⟩

namespace Inquiry

omit [Transport τ] in
/-- The sequence number of the query. -/
def number (q : Inquiry τ) : UInt16 :=
  q.client.state.sequence + 1

/-- **What the query sends**, with the peers that it is sent to, oldest
first. -/
def sendings (q : Inquiry (Traced τ)) : List (SocketAddr × Bytes) :=
  q.outcome.client.transport.sent.drop q.client.transport.sent.length

/-- **A datagram as a query should send it.** -/
structure Sends (q : Inquiry (Traced τ)) (peer : SocketAddr)
    (datagram : Bytes) : Prop where
  /-- It goes to the current host. -/
  host : q.outcome.client.state.host.map (·.addr) = some peer
  /-- It is neither too short nor too long. -/
  length : 12 ≤ datagram.length ∧ datagram.length ≤ 480
  /-- Its length is a multiple of four. -/
  aligned : datagram.length % 4 = 0
  /-- Its header is that of a request. -/
  header : Header.decode datagram = .ok
    { version := q.client.state.version
      response := false
      error := false
      more := false
      opcode := q.opcode.code
      sequence := q.number
      status := 0
      assid := q.assid
      offset := 0
      count := UInt16.ofNat q.data.length }
  /-- It claims a version that there is. -/
  version : 1 ≤ q.client.state.version.toNat
    ∧ q.client.state.version.toNat ≤ 4
  /-- It asks for one of three operations. -/
  opcode : q.opcode.code = 1 ∨ q.opcode.code = 2 ∨ q.opcode.code = 4
  /-- It counts its data. -/
  count : (UInt16.ofNat q.data.length).toNat = q.data.length
  /-- Its data follow, and nothing else but zeros. -/
  data : ∃ n < 4, datagram.drop 12 = q.data ++ Bytes.zeros n

variable {q : Inquiry (Traced τ)}

/-- Finding the host sends nothing. -/
theorem sent_addressed (q : Inquiry (Traced τ)) :
    q.addressed.2.transport.sent = q.client.transport.sent := by
  unfold addressed
  rcases Client.serverAddress_transport q.world q.client with h | h
  · rw [h]
  · rw [h, Traced.sent_close]

/-- **The datagram of a query** is as it should be, if the client's version
exists. -/
theorem sends_nextRequest {peer : SocketAddr} {request : Bytes}
    (hversion : VersionExists q.client.state.version)
    (hpeer : q.addressed.1 = .ok peer)
    (hrequest : q.client.nextRequest? q.opcode q.assid q.data
      = some request) : q.Sends peer request := by
  obtain ⟨n, hn, rfl, hfill, hlen⟩ := Fragment.requestDatagram_eq hrequest
  have hlen : q.data.length ≤ 468 := hlen
  have hlength : ∀ h : Header, (h.encode ++ (q.data ++ Bytes.zeros n)).length
      = 12 + (q.data.length + n) := by
    intro h
    rw [List.length_append, Header.length_encode, List.length_append,
      Bytes.length_zeros]
  constructor
  case host =>
    obtain ⟨host, hhost, haddr⟩ := Client.serverAddress_host hpeer
    unfold outcome
    rw [Client.query_eq_attempt hpeer hrequest]
    show Option.map _ (Client.serverAddress q.world q.client).2.state.host = _
    rw [hhost, ← haddr]
    rfl
  case length =>
    rw [hlength]
    omega
  case aligned =>
    rw [hlength]
    omega
  case header =>
    rw [Header.decode_encode]
    have hkept : UInt8.ofNat (q.client.state.version.toNat % 8)
        = q.client.state.version := by
      rw [Nat.mod_eq_of_lt (Nat.lt_of_le_of_lt hversion.2 (by decide))]
      exact UInt8.ofNat_toNat
    simp only [Header.request, hkept, Fragment.narrow_code, number]
  case version => exact hversion
  case opcode => cases q.opcode <;> decide
  case count =>
    exact Nat.mod_eq_of_lt (Nat.lt_of_le_of_lt hlen (by decide))
  case data => exact ⟨n, hn, List.drop_left' (Header.length_encode _)⟩

/-- **What is sent** in a query is added to the record, and it is nothing
but the datagram of the request, to the address that was found. -/
theorem sent_outcome (q : Inquiry (Traced τ)) :
    q.outcome.client.transport.sent
        = q.client.transport.sent ++ q.sendings
      ∧ ∀ x ∈ q.sendings, q.addressed.1 = .ok x.1
        ∧ q.client.nextRequest? q.opcode q.assid q.data = some x.2 := by
  have hsent : ∃ sent, q.outcome.client.transport.sent
        = q.client.transport.sent ++ sent
      ∧ ∀ x ∈ sent, q.addressed.1 = .ok x.1
        ∧ q.client.nextRequest? q.opcode q.assid q.data = some x.2 := by
    rw [← sent_addressed]
    cases hpeer : q.addressed.1 with
    | error e =>
      refine ⟨[], ?_, fun x hx => absurd hx List.not_mem_nil⟩
      rw [List.append_nil, sent_addressed]
      unfold outcome
      rw [Client.query_of_no_address hpeer]
    | ok peer =>
      cases hrequest : q.client.nextRequest? q.opcode q.assid q.data with
      | none =>
        refine ⟨[], ?_, fun x hx => absurd hx List.not_mem_nil⟩
        obtain ⟨e, he⟩ := Client.query_of_too_long (w := q.world) hpeer hrequest
        rw [List.append_nil]
        unfold outcome
        rw [he]
        rfl
      | some request =>
        unfold outcome
        rw [Client.query_eq_attempt hpeer hrequest]
        obtain ⟨sent, heq, hsame⟩ := Client.attempt_sends peer request
          q.opcode (q.client.state.sequence + 1) q.client.state.timeout
          q.client.state.secondaryTimeout q.client.defaults.retries.toNat
          q.scratch q.addressed.2.transport
        refine ⟨sent, heq, fun x hx => ?_⟩
        rw [hsame x hx]
        exact ⟨rfl, rfl⟩
  obtain ⟨sent, heq, hsame⟩ := hsent
  have hsendings : q.sendings = sent := by
    unfold sendings
    rw [heq, List.drop_left]
  rw [hsendings]
  exact ⟨heq, hsame⟩

/-- **Data that do not fit a message** are not sent, and the query blames
them once its host has been found. -/
theorem outcome_of_too_long (hlong : 468 < q.data.length) :
    q.sendings = [] ∧ (q.draws = true →
      ∃ e, q.outcome.result = .error (.argument e)) := by
  have hnone : q.client.nextRequest? q.opcode q.assid q.data = none :=
    Client.nextRequest_eq_none_iff.mpr hlong
  constructor
  · refine List.eq_nil_iff_forall_not_mem.mpr fun x hx => ?_
    exact absurd (hnone.symm.trans (q.sent_outcome.2 x hx).2) nofun
  · intro hdraws
    obtain ⟨peer, hpeer⟩ := draws_iff.mp hdraws
    obtain ⟨e, he⟩ := Client.query_of_too_long hpeer hnone
    unfold outcome
    rw [he]
    exact ⟨e, rfl⟩

end Inquiry

end NtpQuery
