import NtpQuery.Net.Script
import NtpQuery.Proofs.Client.Host
import NtpQuery.Proofs.Client.Keep
import NtpQuery.Proofs.Session.Inquiries

/-!
# The list of associations belongs to the current server

An argument such as `&3` stands for an entry of the last list of
associations. That makes sense only if the list came from the server that
the next request goes to. The list is read by one operation and dropped
by others, and a client turns to servers in several ways: under another
name of the same address, to the default host in the middle of a query,
or not at all when a name is not known.

What the list is worth is a fact about the past: some query has brought
it (`Inquiry.Brought`), its request went to the address of the current
server, and the transport has not been closed since. Every change in the
course of a client keeps this true (`Client.Course.belongs`).
-/

namespace NtpQuery

variable {τ : Type} [Transport τ]

namespace Traced

omit [Transport τ] in
/-- **A transport that has not been closed since** these events were on
record. -/
def OpenSince (old : List NetEvent) (t : Traced τ) : Prop :=
  ∃ new, t.events = old ++ new ∧ .close ∉ new

variable {old : List NetEvent} {t u : Traced τ}

omit [Transport τ] in
theorem OpenSince.refl (t : Traced τ) : OpenSince t.events t :=
  ⟨[], (List.append_nil _).symm, List.not_mem_nil⟩

omit [Transport τ] in
theorem OpenSince.trans (h : OpenSince old t) (h' : OpenSince t.events u) :
    OpenSince old u := by
  obtain ⟨new, ht, hnew⟩ := h
  obtain ⟨more, hu, hmore⟩ := h'
  refine ⟨new ++ more, by rw [hu, ht, List.append_assoc], ?_⟩
  rw [List.mem_append]
  exact not_or.mpr ⟨hnew, hmore⟩

/-- Sending does not close a transport. -/
theorem openSince_send (t : Traced τ) (peer : SocketAddr) (d : Bytes) :
    OpenSince t.events (Transport.send t peer d).2 := by
  refine ⟨[.ofSend peer d (Transport.send t.inner peer d).1], rfl, ?_⟩
  cases (Transport.send t.inner peer d).1 <;> simp [NetEvent.ofSend]

/-- Receiving does not, either. -/
theorem openSince_recv (t : Traced τ) (size : Nat) (wait : UInt64) :
    OpenSince t.events (Transport.recv t size wait).2 := by
  refine ⟨[.ofRecv wait (Transport.recv t.inner size wait).1], rfl, ?_⟩
  cases (Transport.recv t.inner size wait).1 <;> simp [NetEvent.ofRecv]

/-- A datagram that could be sent is on record. -/
theorem events_of_send {peer : SocketAddr} {d : Bytes}
    (h : Transport.send t peer d = (.ok (), u)) :
    u.events = t.events ++ [.send peer d none] := by
  have hresult : (Transport.send t.inner peer d).1 = .ok () :=
    congrArg Prod.fst h
  rw [← congrArg (fun x => x.2.events) h]
  show t.events ++ [.ofSend peer d (Transport.send t.inner peer d).1] = _
  rw [hresult]
  rfl

end Traced

namespace Client

open Traced

/-- **An attempt** does not close the transport. -/
theorem attempt_openSince (opcode : Opcode) (sequence : UInt16)
    (first further : UInt64) (peer : SocketAddr) (request : Bytes)
    (retries : Nat) (scratch : Bytes) (t : Traced τ) :
    OpenSince t.events (attempt opcode sequence first further peer request
      retries scratch t).2.2 :=
  attempt_keeps peer request
    (fun u hu => hu.trans (openSince_send u peer request))
    (fun u size wait hu => hu.trans (openSince_recv u size wait))
    opcode sequence first further retries scratch t (.refl t)

/-- **An attempt that succeeds** has sent its request first of all, and
has not closed the transport since. -/
theorem attempt_sent {opcode : Opcode} {sequence : UInt16}
    {first further : UInt64} {peer : SocketAddr} {request : Bytes}
    {retries : Nat} {scratch : Bytes} {t : Traced τ} {response : Response}
    (h : (attempt opcode sequence first further peer request retries scratch
      t).1 = .ok response) :
    OpenSince (t.events ++ [.send peer request none])
      (attempt opcode sequence first further peer request retries scratch
        t).2.2 := by
  unfold attempt at h ⊢
  obtain ⟨result, u, hsend⟩ :
      ∃ result u, Transport.send t peer request = (result, u) := ⟨_, _, rfl⟩
  rw [hsend] at h ⊢
  cases result with
  | error e => exact absurd h (by simp)
  | ok _ =>
    rw [← events_of_send hsend]
    have hcollect := collect_keeps (I := OpenSince u.events)
      (fun v size wait hv => hv.trans (openSince_recv v size wait))
      opcode sequence first further .empty scratch u (.refl u)
    dsimp only at h ⊢
    generalize collect opcode sequence first further .empty scratch u = p
      at h hcollect ⊢
    obtain ⟨result, b, v⟩ := p
    cases result with
    | ok r => exact hcollect
    | error e =>
      cases e with
      | timeout =>
        cases retries with
        | zero => exact hcollect
        | succ retries =>
          exact hcollect.trans (attempt_openSince ..)
      | _ => exact hcollect

end Client

namespace Inquiry

open Client Traced

variable {q : Inquiry (Traced τ)}

/-- **What a query leaves alone**, once an address to send to has been
found: the server, the list of associations, and the open transport. -/
theorem outcome_frame (q : Inquiry (Traced τ)) :
    q.outcome.client.state.host = q.addressed.2.state.host
      ∧ q.outcome.client.state.family = q.addressed.2.state.family
      ∧ q.outcome.client.state.associations
        = q.addressed.2.state.associations
      ∧ OpenSince q.addressed.2.transport.events
        q.outcome.client.transport := by
  unfold outcome
  cases hpeer : q.addressed.1 with
  | error e =>
    rw [query_of_no_address hpeer]
    unfold addressed at hpeer ⊢
    rcases serverAddress_cases q.world q.client with
      ⟨host, -, h⟩ | ⟨-, addr, h⟩ | ⟨-, e', h⟩
    · exact absurd ((congrArg Prod.fst h).symm.trans hpeer) (by simp)
    · exact absurd ((congrArg Prod.fst h).symm.trans hpeer) (by simp)
    · rw [h]
      exact ⟨rfl, rfl, rfl, .refl _⟩
  | ok peer =>
    cases hrequest : q.client.nextRequest? q.opcode q.assid q.data with
    | none =>
      obtain ⟨e, he⟩ := query_of_too_long hpeer hrequest
      rw [he]
      exact ⟨rfl, rfl, rfl, .refl _⟩
    | some request =>
      rw [query_eq_attempt hpeer hrequest]
      exact ⟨rfl, rfl, rfl, attempt_openSince ..⟩

/-- **A query that succeeds** has sent a request, first of all and to the
address that was found. -/
theorem outcome_sent {response : Response}
    (h : q.outcome.result = .ok response) :
    ∃ peer request, q.addressed.1 = .ok peer
      ∧ q.client.nextRequest? q.opcode q.assid q.data = some request
      ∧ OpenSince
        (q.addressed.2.transport.events ++ [.send peer request none])
        q.outcome.client.transport := by
  unfold outcome at h ⊢
  cases hpeer : q.addressed.1 with
  | error e =>
    rw [query_of_no_address hpeer] at h
    exact nomatch h
  | ok peer =>
    cases hrequest : q.client.nextRequest? q.opcode q.assid q.data with
    | none =>
      obtain ⟨e, he⟩ := query_of_too_long hpeer hrequest
      rw [he] at h
      exact nomatch h
    | some request =>
      rw [query_eq_attempt hpeer hrequest] at h ⊢
      exact ⟨peer, request, rfl, rfl, attempt_sent h⟩

/-- **The query that has brought a list of associations** from a server,
for a client that talks through `t` by now. -/
structure Brought (q : Inquiry (Traced τ)) (addr : SocketAddr)
    (list : List Association) (t : Traced τ) : Prop where
  /-- The query asked for the list. -/
  asked : q.AsksForList
  /-- Its response was complete, and the list is what it says. -/
  answered : ∃ response, q.outcome.result = .ok response
    ∧ readAssociations response.data = some list
  /-- Its request was sent to the address of the server, before anything
  else was received. -/
  sent : ∃ request header, Header.decode request = .ok header
    ∧ header.opcode = Opcode.readStatus.code
    ∧ header.sequence = q.client.state.sequence + 1
    ∧ OpenSince
      (q.addressed.2.transport.events ++ [.send addr request none])
      q.outcome.client.transport
  /-- The transport has not been closed since. -/
  kept : OpenSince q.outcome.client.transport.events t

/-- As long as the transport is not closed, nothing changes. -/
theorem Brought.mono {addr : SocketAddr} {list : List Association}
    {t u : Traced τ} (h : q.Brought addr list t)
    (hu : OpenSince t.events u) : q.Brought addr list u :=
  ⟨h.asked, h.answered, h.sent, h.kept.trans hu⟩

end Inquiry

namespace Client

open Traced

/-- **A client whose list belongs to its server.** -/
structure Belongs (made : List (Inquiry (Traced τ)))
    (b : Client (Traced τ)) : Prop where
  /-- Without a server there is no list, and any address family will
  do. -/
  idle : b.state.host = none →
    b.state.associations = [] ∧ b.state.family = .any
  /-- A list has been brought from the server. -/
  listed : b.state.associations ≠ [] → ∃ host, b.state.host = some host
    ∧ ∃ q ∈ made,
      q.Brought host.addr b.state.associations b.transport

namespace Belongs

variable {made : List (Inquiry (Traced τ))} {b : Client (Traced τ)}
variable {q : Inquiry (Traced τ)}

/-- A client without a list, and with a server or without a family. -/
theorem of_nil (hlist : b.state.associations = [])
    (hfamily : b.state.host = none → b.state.family = .any) :
    b.Belongs made :=
  ⟨fun hhost => ⟨hlist, hfamily hhost⟩, fun hne => absurd hlist hne⟩

/-- **Starting again** leaves no list. -/
theorem adopt (b : Client (Traced τ)) (d : Defaults) :
    (b.adopt d).Belongs made :=
  of_nil rfl fun _ => rfl

/-- **Turning to a server** keeps the list only if the address is the
same. -/
theorem turn (h : b.Belongs made) (host : Host) (family : AddressFamily) :
    (b.turnTo host family).Belongs made := by
  rcases b.turnTo_cases host family with ⟨hsame, heq⟩ | ⟨-, heq⟩
  · rw [heq]
    refine ⟨nofun, fun hne => ⟨host, rfl, ?_⟩⟩
    obtain ⟨old, hold, q, hq, hbrought⟩ := h.listed hne
    rw [hold] at hsame
    exact ⟨q, hq, Option.some.inj hsame ▸ hbrought⟩
  · rw [heq]
    exact of_nil rfl nofun

/-- **A change of settings** keeps the list. -/
theorem settle (h : b.Belongs made) {s : State}
    (hs : s.bearings = b.state.bearings) :
    ({ b with state := s } : Client (Traced τ)).Belongs made := by
  have hhost : s.host = b.state.host := congrArg Bearings.host hs
  have hfamily : s.family = b.state.family := congrArg Bearings.family hs
  have hlist : s.associations = b.state.associations :=
    congrArg Bearings.associations hs
  refine ⟨fun hnone => ?_, fun hne => ?_⟩
  · show s.associations = [] ∧ s.family = .any
    rw [hlist, hfamily]
    exact h.idle (hhost.symm.trans hnone)
  · show ∃ host, s.host = some host ∧ ∃ q ∈ made,
      q.Brought host.addr s.associations b.transport
    rw [hhost, hlist]
    exact h.listed fun hnil => hne (hlist.trans hnil)

/-- **A query** keeps the list, or finds the client without one. -/
theorem query (h : q.client.Belongs made) :
    q.outcome.client.Belongs (made ++ [q]) := by
  obtain ⟨hhost, hfamily, hlist, hopen⟩ := q.outcome_frame
  rcases serverAddress_cases q.world q.client with
    ⟨host, hsome, heq⟩ | ⟨hnone, addr, heq⟩ | ⟨hnone, e, heq⟩
  · rw [show q.addressed = _ from heq] at hhost hfamily hlist hopen
    refine ⟨fun hno => ?_, fun hne => ?_⟩
    · exact absurd ((hhost.symm.trans hno).symm.trans hsome) (by simp)
    · obtain ⟨old, hold, p, hp, hbrought⟩ :=
        h.listed fun hnil => hne (hlist.trans hnil)
      refine ⟨old, hhost.trans hold, p, List.mem_append_left _ hp, ?_⟩
      rw [hlist]
      exact hbrought.mono hopen
  · rw [show q.addressed = _ from heq] at hhost hfamily hlist
    exact of_nil hlist fun hno => absurd (hhost.symm.trans hno) (by
      simp [withDefaultHost])
  · rw [show q.addressed = _ from heq] at hhost hfamily hlist
    obtain ⟨hnil, hany⟩ := h.idle hnone
    exact of_nil (hlist.trans hnil) fun _ => hfamily.trans hany

/-- **Taking over the list** that a query has brought. -/
theorem list {response : Response} {list : List Association}
    (hasked : q.AsksForList) (hresponse : q.outcome.result = .ok response)
    (hlist : readAssociations response.data = some list) :
    (q.outcome.client.modify fun s => { s with associations := list }).Belongs
      (made ++ [q]) := by
  obtain ⟨peer, request, hpeer, hrequest, hsent⟩ :=
    Inquiry.outcome_sent hresponse
  obtain ⟨header, hdecode, hsequence, hopcode⟩ := decode_nextRequest hrequest
  obtain ⟨host, hhost, haddr⟩ : ∃ host,
      q.outcome.client.state.host = some host ∧ host.addr = peer := by
    rw [q.outcome_frame.1]
    exact serverAddress_host hpeer
  refine ⟨fun hno => absurd (hhost.symm.trans hno) (by simp), fun _ =>
    ⟨host, hhost, q, List.mem_append_right _ List.mem_cons_self, hasked,
      ⟨response, hresponse, hlist⟩, ?_, .refl _⟩⟩
  rw [haddr]
  rw [hasked.1] at hopcode
  exact ⟨request, header, hdecode, hopcode, hsequence, hsent⟩

end Belongs

/-- **The list belongs to the server** all along a course that starts
without either. -/
theorem Course.belongs {c b : Client (Traced τ)}
    {made : List (Inquiry (Traced τ))} (hc : c.Belongs [])
    (h : Course c made b) : b.Belongs made := by
  induction h with
  | start => exact hc
  | query q _ ih => exact ih.query
  | list _ hasked hresponse hlist => exact .list hasked hresponse hlist
  | adopt d => exact .adopt _ d
  | turn host family _ ih => exact ih.turn host family
  | settle _ hs ih => exact ih.settle hs

end Client

/-- **The list of associations belongs to the current server**, in every
run of operations and commands and at every query on the way. Without a
server there is no list, and the address family is any. A list that is not
empty is what the response to one query said, the request for it went to
the address of the current server, and the transport has not been closed
since. -/
theorem associations_belong {ω : Type} [Workspace ω] (d : Defaults) (t : τ)
    (ops : List (Operation ω)) :
    let start : Client (Traced τ) := .new d ⟨t, []⟩
    let made := Operation.inquiriesAll ops start
    (Operation.performAll ops start).Belongs made
      ∧ ∀ earlier q later, made = earlier ++ q :: later →
        q.client.Belongs earlier := by
  intro start made
  have hstart : start.Belongs [] := .of_nil rfl fun _ => rfl
  have hrun : Client.Course start made (Operation.performAll ops start) :=
    Operation.course_performAll .start ops
  refine ⟨hrun.belongs hstart, fun earlier q later hmade => ?_⟩
  exact (hrun.before hmade).belongs hstart

/-- A server with one association: its list is taken over, and kept when
the client turns to another name of the same address. -/
theorem associations_belong_renamed :
    let rule : Script.Rule :=
      ⟨none, none, none, [.fragment {} 0 false [0, 7, 96, 20]], 0⟩
    let w : World := ⟨0, fun _ => [.v4 #v[192, 0, 2, 1]], .unlimited,
      fun _ => true⟩
    let start : Client (Traced (Exchange Script)) :=
      .new {} ⟨⟨⟨[rule]⟩, []⟩, []⟩
    let ops : List (Operation Tape) :=
      [.refresh w (Bytes.zeros 16), .selectHost w "ntp" .v4]
    let b := Operation.performAll ops start
    b.state.associations = [⟨7, 24596⟩]
      ∧ b.state.host = some ⟨"ntp", ⟨.v4 #v[192, 0, 2, 1], 123⟩⟩
      ∧ ∃ q ∈ Operation.inquiriesAll ops start,
        q.Brought ⟨.v4 #v[192, 0, 2, 1], 123⟩ [⟨7, 24596⟩] b.transport := by
  intro rule w start ops b
  have hlist : b.state.associations = [⟨7, 24596⟩] := by decide +kernel
  have hhost : b.state.host = some ⟨"ntp", ⟨.v4 #v[192, 0, 2, 1], 123⟩⟩ := by
    decide +kernel
  have hbelongs : b.Belongs _ :=
    (associations_belong {} (⟨⟨[rule]⟩, []⟩ : Exchange Script) ops).1
  have hne : b.state.associations ≠ [] := by
    rw [hlist]
    exact List.cons_ne_nil _ _
  obtain ⟨host, hb, q, hq, hbrought⟩ := hbelongs.listed hne
  obtain rfl := Option.some.inj (hb.symm.trans hhost)
  exact ⟨hlist, hhost, q, hq, hlist ▸ hbrought⟩

end NtpQuery
