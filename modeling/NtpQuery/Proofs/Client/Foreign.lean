import NtpQuery.Net.Script
import NtpQuery.Proofs.Client.Alike
import NtpQuery.Proofs.Net.Disturbed
import NtpQuery.Proofs.Net.Trace
import NtpQuery.Proofs.Wire.RoundTrip

/-!
# Datagrams that are not for a request

A request is known by its operation and its sequence number. A datagram
that is not a response with both is `Foreign` to it, and so is one that
cannot be read; `verdict_eq_foreign_iff` says that these are the datagrams
that the client passes over.

Passing over costs nothing. However many foreign datagrams get in between
the others, before a query or because of any of its sendings, the query
has the same result, sends the same, remembers the same, and waits as long
for every other datagram (`Client.query_among_strangers`).
-/

namespace NtpQuery

/-- **A datagram that is not for a request** with this operation and this
sequence number. -/
inductive Foreign (opcode : Opcode) (sequence : UInt16) (d : Bytes) :
    Prop where
  /-- It is too short for a header. -/
  | short : d.length < 12 → Foreign opcode sequence d
  /-- It is of another mode than control messages are. -/
  | mode {b : UInt8} : d.head? = some b → b.toNat % 8 ≠ 6 →
    Foreign opcode sequence d
  /-- It counts more bytes than it carries, or than a message carries. -/
  | count {h : Header} : Header.decode d = .ok h →
    d.length - 12 < h.count.toNat ∨ 468 < h.count.toNat →
    Foreign opcode sequence d
  /-- It is not a response. -/
  | request {h : Header} : Header.decode d = .ok h → h.response = false →
    Foreign opcode sequence d
  /-- It has another sequence number. -/
  | sequence {h : Header} : Header.decode d = .ok h →
    h.sequence ≠ sequence → Foreign opcode sequence d
  /-- It is about another operation. -/
  | opcode {h : Header} : Header.decode d = .ok h →
    h.opcode ≠ opcode.code → Foreign opcode sequence d

namespace Client

variable {opcode : Opcode} {sequence : UInt16} {d : Bytes}

/-- **A datagram with a header is passed over** unless it carries what it
counts, is a response, and has the number and the operation of the
request. -/
theorem verdict_eq_foreign_iff_of_decode {h : Header}
    (hd : Header.decode d = .ok h) :
    verdict opcode sequence d = .foreign
      ↔ ¬ ((h.count.toNat ≤ d.length - 12 ∧ h.count.toNat ≤ 468)
        ∧ h.response = true ∧ h.sequence = sequence
        ∧ h.opcode = opcode.code) := by
  unfold verdict Fragment.decode
  rw [hd]
  dsimp only
  rw [List.length_drop]
  by_cases hcount : h.count.toNat ≤ d.length - headerLength
      ∧ h.count.toNat ≤ maxPayload
  · rw [if_pos hcount]
    dsimp only
    by_cases hfits : h.response = true ∧ h.sequence = sequence
        ∧ h.opcode = opcode.code
    · rw [if_neg (by simp [hfits])]
      refine iff_of_false ?_ fun hnot => hnot ⟨hcount, hfits⟩
      split <;> exact nofun
    · refine iff_of_true (if_pos ?_) fun h => hfits h.2
      simp only [Bool.or_eq_true, Bool.not_eq_true', bne_iff_ne]
      grind
  · rw [if_neg hcount]
    exact iff_of_true rfl fun h => hcount h.1

/-- So is one without a header. -/
theorem verdict_of_not_decode (h : ¬ ∃ h, Header.decode d = .ok h) :
    verdict opcode sequence d = .foreign := by
  unfold verdict Fragment.decode
  cases hd : Header.decode d with
  | error e => rfl
  | ok header => exact absurd ⟨header, hd⟩ h

/-- **The datagrams that are passed over** are those that are not for the
request. -/
theorem verdict_eq_foreign_iff :
    verdict opcode sequence d = .foreign ↔ Foreign opcode sequence d := by
  constructor
  · intro hverdict
    by_cases hheader : ∃ h, Header.decode d = .ok h
    · obtain ⟨h, hd⟩ := hheader
      have hnot := (verdict_eq_foreign_iff_of_decode hd).mp hverdict
      by_cases hcount : h.count.toNat ≤ d.length - 12 ∧ h.count.toNat ≤ 468
      · by_cases hresponse : h.response = true
        · by_cases hsequence : h.sequence = sequence
          · exact .opcode hd fun hopcode =>
              hnot ⟨hcount, hresponse, hsequence, hopcode⟩
          · exact .sequence hd hsequence
        · exact .request hd (Bool.not_eq_true _ ▸ hresponse)
      · exact .count hd (by omega)
    · by_cases hlong : 12 ≤ d.length
      · obtain ⟨b, rest, rfl⟩ := List.exists_cons_of_length_pos
          (Nat.lt_of_lt_of_le (by decide) hlong)
        exact .mode rfl fun hmode =>
          hheader ((Header.exists_decode_iff _).mpr ⟨hlong, b, rfl, hmode⟩)
      · exact .short (Nat.lt_of_not_le hlong)
  · intro hforeign
    cases hforeign with
    | short hshort =>
      refine verdict_of_not_decode fun hheader => ?_
      have hlong := ((Header.exists_decode_iff d).mp hheader).1
      omega
    | mode hb hmode =>
      refine verdict_of_not_decode fun hheader => hmode ?_
      obtain ⟨-, b, hb', hmode'⟩ := (Header.exists_decode_iff d).mp hheader
      rwa [Option.some.inj (hb.symm.trans hb')]
    | count hd hcount =>
      refine (verdict_eq_foreign_iff_of_decode hd).mpr fun h => ?_
      omega
    | request hd hresponse =>
      refine (verdict_eq_foreign_iff_of_decode hd).mpr fun h => ?_
      exact absurd (hresponse.symm.trans h.2.1) (by decide)
    | sequence hd hsequence =>
      exact (verdict_eq_foreign_iff_of_decode hd).mpr fun h =>
        hsequence h.2.2.1
    | opcode hd hopcode =>
      exact (verdict_eq_foreign_iff_of_decode hd).mpr fun h =>
        hopcode h.2.2.2

end Client

/-- **What is cut stays foreign**: no buffer is so short that a datagram
becomes one for the request. -/
theorem Foreign.take {opcode : Opcode} {sequence : UInt16} {d : Bytes}
    (h : Foreign opcode sequence d) (n : Nat) :
    Foreign opcode sequence (d.take n) := by
  by_cases hn : 12 ≤ n
  · cases h with
    | short hshort =>
      refine .short (Nat.lt_of_le_of_lt ?_ hshort)
      rw [List.length_take]
      exact Nat.min_le_right ..
    | mode hb hmode =>
      refine .mode ?_ hmode
      rw [List.head?_take, if_neg (by omega)]
      exact hb
    | count hd hcount =>
      refine .count (Header.decode_take hd hn) ?_
      rw [List.length_take]
      omega
    | request hd hresponse =>
      exact .request (Header.decode_take hd hn) hresponse
    | sequence hd hsequence =>
      exact .sequence (Header.decode_take hd hn) hsequence
    | opcode hd hopcode => exact .opcode (Header.decode_take hd hn) hopcode
  · refine .short ?_
    rw [List.length_take]
    omega

namespace Disturbed.Beside

variable {σ : Type} [Responder σ] {opcode : Opcode} {sequence : UInt16}
variable {old old' : List NetEvent}
variable {t : Traced (Exchange σ)} {t' : Traced (Exchange (Disturbed σ))}

/-- **Receiving among strangers**: when the foreign datagrams in front have
been passed over, the same is received on either side. -/
theorem recv (h : Beside (Foreign opcode sequence) old old' t t')
    (first further : UInt64) (a : Assembly) (scratch : Bytes) :
    ∃ passed u', passed.length = scratch.length
      ∧ Client.collect opcode sequence first further a scratch t'
        = Client.collect opcode sequence first further a passed u'
      ∧ (Transport.recv t scratch.length
          (Client.patience first further a)).1
        = (Transport.recv u' scratch.length
          (Client.patience first further a)).1
      ∧ Beside (Foreign opcode sequence) old old'
        (Transport.recv t scratch.length
          (Client.patience first further a)).2
        (Transport.recv u' scratch.length
          (Client.patience first further a)).2 := by
  obtain ⟨⟨responder, queue⟩, events⟩ := t
  obtain ⟨⟨⟨responder', noise⟩, queue'⟩, events'⟩ := t'
  obtain ⟨rfl, hnoise, hqueue, hevents⟩ := h
  dsimp only at hnoise hqueue hevents
  induction hqueue generalizing scratch events' with
  | nil =>
    exact ⟨scratch, _, rfl, rfl, rfl, rfl, hnoise, .nil,
      events_concat hevents _⟩
  | keep x hqueue =>
    refine ⟨scratch, _, rfl, rfl, ?_⟩
    cases x with
    | datagram d =>
      exact ⟨rfl, rfl, hnoise, hqueue, events_concat hevents _⟩
    | failure e =>
      exact ⟨rfl, rfl, hnoise, hqueue, events_concat hevents _⟩
  | @stray l m x hx hqueue ih =>
    cases x with
    | failure e => exact hx.elim
    | datagram d =>
      have hforeign : Foreign opcode sequence (d.take scratch.length) :=
        Foreign.take hx scratch.length
      obtain ⟨new, new', hold, rfl, hnew⟩ := hevents
      have hrest := ih (Bytes.overlay scratch (d.take scratch.length))
        _ ⟨new, _, hold, List.append_assoc .., hnew.concat_stray (x :=
          .recv (Client.patience first further a)
            (.datagram (d.take scratch.length))) hforeign⟩
      rw [Bytes.length_overlay] at hrest
      obtain ⟨passed, u', hpassed, hcollect, hrecv⟩ := hrest
      refine ⟨passed, u', hpassed, ?_, hrecv⟩
      rw [← hcollect, Client.collect_of_datagram rfl,
        Client.verdict_eq_foreign_iff.mpr hforeign]
      rfl

/-- **A request is served alike among strangers** who send nothing that is
for it. -/
theorem serves (old old' : List NetEvent) :
    Client.Serves (Beside (σ := σ) (Foreign opcode sequence) old old')
      opcode sequence where
  send h peer datagram := h.send peer datagram
  close h := h.close
  recv h first further a scratch := h.recv first further a scratch

end Disturbed.Beside

namespace Client

variable {σ : Type} [Responder σ]

/-- **A client among strangers.** -/
def disturb (noise : Nat → Nat → List Bytes)
    (c : Client (Traced (Exchange σ))) :
    Client (Traced (Exchange (Disturbed σ))) :=
  ⟨c.state, c.defaults,
    ⟨c.transport.inner.disturb noise, c.transport.events⟩⟩

/-- **A query among strangers.** Whatever a client asks, whatever its peer
answers, and however many datagrams that are not for the request get in
between, before the query and because of each sending: the result is the
same, the client remembers the same, the same datagrams are sent, and what
is asked of the transport is the same but for the receiving of foreign
datagrams, each wait included. -/
theorem query_among_strangers (c : Client (Traced (Exchange σ)))
    (w : World) (opcode : Opcode) (assid : UInt16) (data scratch : Bytes)
    (noise : Nat → Nat → List Bytes)
    (hnoise : ∀ n i, ∀ d ∈ noise n i,
      Foreign opcode (c.state.sequence + 1) d) :
    let o := c.query w opcode assid data scratch
    let o' := (c.disturb noise).query w opcode assid data scratch
    o'.result = o.result
      ∧ o'.client.state = o.client.state
      ∧ o'.client.defaults = o.client.defaults
      ∧ o'.client.transport.sent = o.client.transport.sent
      ∧ ∃ new new', o.client.transport.events = c.transport.events ++ new
        ∧ o'.client.transport.events = c.transport.events ++ new'
        ∧ Strewn
          (NetEvent.Stray (Foreign opcode (c.state.sequence + 1)))
          new new' := by
  have hbeside : Disturbed.Beside (Foreign opcode (c.state.sequence + 1))
      c.transport.events c.transport.events c.transport
      (c.disturb noise).transport :=
    ⟨rfl, fun n => hnoise (n + 1), strewn_disturb (hnoise 0) _,
      [], [], (List.append_nil _).symm, (List.append_nil _).symm, .nil⟩
  have halike : c.Alike (Disturbed.Beside
      (Foreign opcode (c.state.sequence + 1)) c.transport.events
      c.transport.events) (c.disturb noise) :=
    ⟨rfl, rfl, hbeside⟩
  obtain ⟨hresult, ⟨hstate, hdefaults, htransport⟩, -, -⟩ :=
    halike.query_of_serves opcode (Disturbed.Beside.serves _ _) w assid
      data (rfl : scratch.length = scratch.length)
  obtain ⟨new, new', hnew, hnew', hstrewn⟩ := htransport.events
  refine ⟨hresult.symm, hstate.symm, hdefaults.symm, ?_, new, new', hnew,
    hnew', hstrewn⟩
  have hsent : ∀ e, NetEvent.Stray
      (Foreign opcode (c.state.sequence + 1)) e → e.sent? = none := by
    intro e he
    cases e with
    | send peer d refusal => exact he.elim
    | recv wait x => rfl
    | close => rfl
  unfold Traced.sent
  rw [hnew, hnew', List.filterMap_append, List.filterMap_append,
    hstrewn.filterMap_eq hsent]

/-- A scrap, the request itself, and a refusal of another request, in every
gap: the peer is heard through them as it is without them. -/
theorem query_among_strangers_three :
    let h := Header.request 2 .readVariables 1 9 0
    let refusal := { h with response := true, error := true, sequence := 2 }
    let noise : Nat → Nat → List Bytes :=
      fun _ _ => [[22], h.encode, refusal.encode]
    let reply := Script.Event.response {} 2 [97, 61, 49, 44, 98]
    let w : World := ⟨0, fun _ => [.v4 #v[192, 0, 2, 1]], .unlimited,
      fun _ => true⟩
    let c : Client (Traced (Exchange Script)) :=
      .new {} ⟨⟨⟨[⟨none, none, none, [reply], 0⟩]⟩, []⟩, []⟩
    let o := c.query w .readVariables 9 [] (Bytes.zeros 480)
    let o' := (c.disturb noise).query w .readVariables 9 [] (Bytes.zeros 480)
    (∀ n i, ∀ d ∈ noise n i,
        Foreign .readVariables (c.state.sequence + 1) d)
      ∧ o'.result = o.result
      ∧ o'.client.transport.sent = o.client.transport.sent := by
  intro h refusal noise reply w c o o'
  have hnoise : ∀ n i, ∀ d ∈ noise n i,
      Foreign .readVariables (c.state.sequence + 1) d := by
    intro n i
    refine List.forall_mem_cons.mpr ⟨.short (by decide), ?_⟩
    refine List.forall_mem_cons.mpr ⟨.request (Header.decode_encode h []) rfl, ?_⟩
    exact List.forall_mem_singleton.mpr
      (.sequence (Header.decode_encode refusal []) (by decide))
  obtain ⟨hresult, -, -, hsent, -⟩ := query_among_strangers c w
    .readVariables 9 [] (Bytes.zeros 480) noise hnoise
  exact ⟨hnoise, hresult, hsent⟩

end Client

end NtpQuery
