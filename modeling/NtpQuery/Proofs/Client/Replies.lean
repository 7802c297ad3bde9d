import NtpQuery.Proofs.Client.Host
import NtpQuery.Proofs.Client.Keep
import NtpQuery.Proofs.Net.Script
import NtpQuery.Proofs.Session.Inquiries
import NtpQuery.Proofs.Wire.Codec

/-!
# Replies never cross

What a query leaves behind waits for the next one: late replies,
duplicates, the rest of a response that ended in an error. The client
tells them apart by their sequence number alone, and numbers come round
again.

What is waiting is known by its age. Since the transport was last closed
some numbers have been drawn, and whatever waits carries one of them
(`Course.recent`): closing empties the queue, and it is the only thing
that happens when the numbering starts again. As long as fewer than 65536
numbers have been drawn, the next one is none of them.
-/

namespace NtpQuery

/-- **An arrival of the last numbers**: if it carries a sequence number,
then one of the last `k` up to `sequence`. -/
def Arrival.Recent (k : Nat) (sequence : UInt16) (x : Arrival) : Prop :=
  ∀ n ∈ x.sequence?, ∃ i < k, n = sequence - UInt16.ofNat i

namespace Arrival

variable {k : Nat} {s : UInt16} {x : Arrival}

/-- The last numbers are among the last numbers still when one more is
drawn. -/
theorem Recent.next (h : x.Recent k s) : x.Recent (k + 1) (s + 1) := by
  intro n hn
  obtain ⟨i, hi, rfl⟩ := h n hn
  refine ⟨i + 1, Nat.succ_lt_succ hi, ?_⟩
  apply UInt16.toNat_inj.mp
  simp only [UInt16.toNat_sub, UInt16.toNat_add, UInt16.toNat_ofNat']
  have hone : (1 : UInt16).toNat = 1 := rfl
  omega

/-- The number that has just been drawn is one of the last. -/
theorem recent_of_eq (hx : ∀ n ∈ x.sequence?, n = s) :
    x.Recent (k + 1) s := by
  intro n hn
  refine ⟨0, Nat.succ_pos k, ?_⟩
  rw [hx n hn]
  exact (UInt16.sub_zero s).symm

/-- **The next number is none of the last**, if these are not all there
are. -/
theorem Recent.ne_next (h : x.Recent k s) (hk : k < 65536) :
    ∀ n ∈ x.sequence?, n ≠ s + 1 := by
  intro n hn heq
  obtain ⟨i, hi, rfl⟩ := h n hn
  -- the number that was drawn `i` before the last comes round again
  -- after 65536 drawings, and `i + 1` are too few
  have hnat := congrArg UInt16.toNat heq
  simp only [UInt16.toNat_sub, UInt16.toNat_add, UInt16.toNat_ofNat']
    at hnat
  have hone : (1 : UInt16).toNat = 1 := rfl
  have hs := s.toNat_lt
  omega

/-- A datagram that means something to a request carries the number of
the request, also when it was cut. -/
theorem sequence_of_verdict {opcode : Opcode} {d : Bytes} {size : Nat}
    (h : Client.verdict opcode s (d.take size) ≠ .foreign) :
    (datagram d).sequence? = some s := by
  unfold Client.verdict at h
  split at h
  · exact absurd rfl h
  next f hf =>
    have hd := Header.decode_append (d.drop size)
      (Fragment.header_of_decode hf)
    rw [List.take_append_drop] at hd
    unfold sequence?
    dsimp only
    rw [hd]
    by_cases hseq : f.header.sequence = s
    · exact congrArg some hseq
    · exact absurd (if_pos (by simp [hseq])) h

end Arrival

variable {σ : Type} [Responder σ]

namespace Inquiry

/-- How often the transport had been closed when the query went out. -/
def closings (q : Inquiry (Mail σ)) : Nat :=
  q.addressed.2.transport.closings

/-- **What a query accepts**, as a fragment or as a report of an error:
the datagrams that are not foreign to its number and operation, as far as
its buffer holds them. -/
def Accepts (q : Inquiry (Mail σ)) (x : Arrival) : Prop :=
  ∃ d, x = .datagram d
    ∧ Client.verdict q.opcode (q.client.state.sequence + 1)
        (d.take q.scratch.length) ≠ .foreign

/-- **A query that keeps to its own replies**: of all that is received
during the query, what it accepts was brought by one of its own
sendings. -/
def KeepsToItself (q : Inquiry (Mail σ)) : Prop :=
  ∃ new, q.outcome.client.transport.received
      = q.client.transport.received ++ new
    ∧ ∀ e ∈ new, q.Accepts e.2 → q.client.transport.sendings ≤ e.1

end Inquiry

/-- **How many sequence numbers were drawn** while the transport had been
closed so many times. -/
def drawnSince (made : List (Inquiry (Mail σ))) (closings : Nat) : Nat :=
  made.countP fun q => q.draws && q.closings == closings

namespace Client

/-- What may be known of an arrival during a query: it is of the last
numbers before the query, or it was brought by the query itself and
carries the number of the query. -/
def Known (first k : Nat) (s : UInt16) (e : Nat × Arrival) : Prop :=
  e.2.Recent k s ∨ first ≤ e.1 ∧ ∀ n ∈ e.2.sequence?, n = s + 1

/-- **What an attempt does with mail**: all that it receives, and all
that is left waiting, was waiting before or is an answer to the
request. -/
theorem attempt_within (hσ : Responder.Echoes σ) {P : Nat × Arrival → Prop}
    {old : List (Nat × Arrival)} {first : Nat} (peer : SocketAddr)
    {request : Bytes} {h : Header} (hdecode : Header.decode request = .ok h)
    (hP : ∀ n x, first ≤ n → (∀ m ∈ x.sequence?, m = h.sequence) → P (n, x))
    (opcode : Opcode) (sequence : UInt16) (wait further : UInt64)
    (retries : Nat) (scratch : Bytes) (t : Mail σ)
    (ht : t.Within P old) (hfirst : first ≤ t.sendings) :
    let t' := (attempt opcode sequence wait further peer request retries
      scratch t).2.2
    t'.Within P old ∧ t'.closings = t.closings := by
  have hkeep := attempt_keeps (τ := Mail σ) (I := fun u =>
      first ≤ u.sendings ∧ u.Within P old ∧ u.closings = t.closings)
    peer request ?_ ?_ opcode sequence wait further retries scratch t
    ⟨hfirst, ht, rfl⟩
  · exact hkeep.2
  · intro u ⟨hu, hwithin, hclosings⟩
    refine ⟨?_, hwithin.send fun x hx => ?_, ?_⟩
    · rw [show (Transport.send u peer request).2.sendings = u.sendings + 1
        from Mail.sendings_send u peer request]
      exact Nat.le_succ_of_le hu
    · exact hP _ x hu (hσ u.responder peer request h hdecode x hx)
    · exact (Mail.closings_send u peer request).trans hclosings
  · intro u size wait ⟨hu, hwithin, hclosings⟩
    obtain ⟨hsendings, hclosed⟩ := Mail.counts_recv u size
    exact ⟨hsendings ▸ hu, hwithin.recv size, hclosed.trans hclosings⟩

end Client

namespace Inquiry

open Client

variable {q : Inquiry (Mail σ)}

/-- Finding the host receives nothing, and sends nothing. -/
theorem addressed_mail (q : Inquiry (Mail σ)) :
    q.addressed.2.transport.received = q.client.transport.received
      ∧ q.addressed.2.transport.sendings = q.client.transport.sendings := by
  cases serverAddress_transport q.world q.client with
  | inl h =>
    unfold addressed
    rw [h]
    exact ⟨rfl, rfl⟩
  | inr h =>
    unfold addressed
    rw [h]
    exact ⟨rfl, rfl⟩

/-- **What a query makes of the mail**, once it has drawn its number: if
what was waiting is of the last numbers, then all that is received and
all that is left is of these, or belongs to the query. -/
theorem outcome_of_draws (hσ : Responder.Echoes σ)
    (hdraws : q.draws = true) {k : Nat}
    (hwait : ∀ e ∈ q.addressed.2.transport.queue,
      e.2.Recent k q.client.state.sequence) :
    q.outcome.client.transport.Within
        (Known q.client.transport.sendings k q.client.state.sequence)
        q.client.transport.received
      ∧ q.outcome.client.transport.closings = q.closings
      ∧ q.outcome.client.state.sequence = q.client.state.sequence + 1 := by
  obtain ⟨hreceived, hsendings⟩ := addressed_mail q
  obtain ⟨peer, hpeer⟩ := draws_iff.mp hdraws
  obtain ⟨hseq, -⟩ := serverAddress_frame q.world q.client
  have hwithin : q.addressed.2.transport.Within
      (Known q.client.transport.sendings k q.client.state.sequence)
      q.client.transport.received :=
    ⟨fun e he => Or.inl (hwait e he),
      ⟨[], by rw [hreceived, List.append_nil], fun e he =>
        absurd he List.not_mem_nil⟩⟩
  have hnumber : q.addressed.2.state.sequence + 1
      = q.client.state.sequence + 1 := congrArg (· + 1) hseq
  cases hrequest : q.client.nextRequest? q.opcode q.assid q.data with
  | none =>
    obtain ⟨e, he⟩ := query_of_too_long hpeer hrequest
    unfold outcome
    rw [he]
    exact ⟨hwithin, rfl, hnumber⟩
  | some request =>
    obtain ⟨h, hdecode, hh, -⟩ := decode_nextRequest hrequest
    have hattempt := attempt_within hσ peer hdecode
      (P := Known q.client.transport.sendings k q.client.state.sequence)
      (fun n x hn hx => Or.inr ⟨hn, fun m hm => (hx m hm).trans hh⟩)
      q.opcode (q.client.state.sequence + 1) q.client.state.timeout
      q.client.state.secondaryTimeout q.client.defaults.retries.toNat
      q.scratch q.addressed.2.transport hwithin
      (Nat.le_of_eq hsendings.symm)
    unfold outcome
    rw [query_eq_attempt hpeer hrequest]
    exact ⟨hattempt.1, hattempt.2, hnumber⟩

/-- Finding the host leaves nothing waiting that had not been waiting
before, and nothing at all if the transport is closed. -/
theorem addressed_recent {k : Nat → Nat}
    (hwait : ∀ e ∈ q.client.transport.queue,
      e.2.Recent (k q.client.transport.closings) q.client.state.sequence) :
    ∀ e ∈ q.addressed.2.transport.queue,
      e.2.Recent (k q.closings) q.client.state.sequence := by
  unfold closings addressed
  cases serverAddress_transport q.world q.client with
  | inl h =>
    rw [h]
    exact hwait
  | inr h =>
    rw [h]
    exact fun e he => absurd he List.not_mem_nil

end Inquiry

section Runs

open Client

variable {c b : Client (Mail σ)} {made : List (Inquiry (Mail σ))}
variable {q : Inquiry (Mail σ)}

theorem drawnSince_append (made : List (Inquiry (Mail σ)))
    (q : Inquiry (Mail σ)) (hdraws : q.draws = true) :
    drawnSince (made ++ [q]) q.closings
      = drawnSince made q.closings + 1 := by
  unfold drawnSince
  rw [List.countP_append, List.countP_singleton, if_pos (by simp [hdraws])]

theorem drawnSince_append_of_not_draws (made : List (Inquiry (Mail σ)))
    (q : Inquiry (Mail σ)) (hdraws : q.draws = false) (n : Nat) :
    drawnSince (made ++ [q]) n = drawnSince made n := by
  unfold drawnSince
  rw [List.countP_append, List.countP_singleton, if_neg (by simp [hdraws]),
    Nat.add_zero]

/-- **Whatever waits is recent**: it carries one of the numbers that were
drawn since the transport was last closed. -/
theorem Client.Course.recent (hσ : Responder.Echoes σ)
    (hc : c.transport.queue = []) (h : Course c made b) :
    ∀ e ∈ b.transport.queue,
      e.2.Recent (drawnSince made b.transport.closings)
        b.state.sequence := by
  induction h with
  | start =>
    rw [hc]
    exact fun e he => absurd he List.not_mem_nil
  | @query made q _ ih =>
    cases hdraws : q.draws with
    | false =>
      rw [Inquiry.outcome_of_not_draws hdraws,
        drawnSince_append_of_not_draws made q hdraws]
      exact ih
    | true =>
      obtain ⟨hwithin, hclosings, hsequence⟩ :=
        Inquiry.outcome_of_draws hσ hdraws (Inquiry.addressed_recent ih)
      rw [hclosings, hsequence, drawnSince_append made q hdraws]
      -- what was waiting is older by one number now, and what the query
      -- brought has the newest
      intro e he
      rcases hwithin.queue e he with hold | ⟨-, hown⟩
      · exact hold.next
      · exact Arrival.recent_of_eq hown
  | list _ _ _ _ ih => exact ih
  | adopt => exact fun e he => absurd he List.not_mem_nil
  | @turn made b host family _ ih =>
    rcases b.turnTo_cases host family with ⟨-, h⟩ | ⟨-, h⟩
    · rw [h]
      exact ih
    · rw [h]
      exact fun e he => absurd he List.not_mem_nil
  | @settle made b s _ hs ih =>
    rw [show s.sequence = b.state.sequence from congrArg Bearings.sequence hs]
    exact ih

/-- A query whose leftovers are recent keeps to its own replies. -/
theorem Inquiry.keepsToItself_of_recent (hσ : Responder.Echoes σ)
    {k : Nat} (hk : k < 65536)
    (hwait : ∀ e ∈ q.addressed.2.transport.queue,
      e.2.Recent k q.client.state.sequence) : q.KeepsToItself := by
  cases hdraws : q.draws with
  | false =>
    refine ⟨[], ?_, fun e he => absurd he List.not_mem_nil⟩
    rw [outcome_of_not_draws hdraws, List.append_nil]
  | true =>
    obtain ⟨⟨-, new, hnew, hknown⟩, -, -⟩ := outcome_of_draws hσ hdraws hwait
    refine ⟨new, hnew, ?_⟩
    rintro ⟨n, x⟩ he ⟨d, rfl, hd⟩
    rcases hknown _ he with hold | ⟨hown, -⟩
    · exact absurd rfl
        (hold.ne_next hk _ (Arrival.sequence_of_verdict hd))
    · exact hown

/-- **Replies never cross between queries.** In every run of operations,
over a transport in which nothing waits at first and a peer that repeats
the sequence numbers of requests, a query accepts only what its own
sendings have brought, provided that fewer than 65536 sequence numbers
have been drawn since the transport was last closed. -/
theorem replies_never_cross {ω : Type} [Workspace ω]
    (hσ : Responder.Echoes σ) (hc : c.transport.queue = [])
    (ops : List (Operation ω)) {earlier later : List (Inquiry (Mail σ))}
    (hmade : Operation.inquiriesAll ops c = earlier ++ q :: later)
    (hdrawn : drawnSince earlier q.closings < 65536) :
    q.KeepsToItself := by
  have hrun := Operation.course_performAll (.start (c := c)) ops
  have hbefore : Course c earlier q.client := hrun.before hmade
  exact Inquiry.keepsToItself_of_recent hσ hdrawn
    (Inquiry.addressed_recent (hbefore.recent hσ hc))

/-- A peer that answers everything twice: of the second query, the answer
to the first that is still waiting is none. -/
theorem replies_never_cross_twice :
    let reply := Script.Event.fragment {} 0 false [110, 116, 112]
    let s : { s : Script // s.Echoing } :=
      ⟨⟨[⟨none, none, none, [reply, reply], 0⟩]⟩, by
        simp [Script.Echoing, Script.Event.Echoing, reply]⟩
    let w : World := ⟨0, fun _ => [.v4 #v[192, 0, 2, 1]], .unlimited,
      fun _ => true⟩
    let c : Client (Mail { s : Script // s.Echoing }) :=
      .new {} ⟨s, [], 0, [], 0⟩
    let ask : Operation Tape := .query w .readVariables 0 [] (Bytes.zeros 480)
    ∃ first second, Operation.inquiriesAll [ask, ask] c = [first, second]
      ∧ drawnSince [first] second.closings < 65536
      ∧ second.KeepsToItself := by
  intro reply s w c ask
  refine ⟨_, _, rfl, ?_, ?_⟩
  · exact Nat.lt_of_le_of_lt List.countP_le_length (by decide)
  · exact replies_never_cross Script.echoes (c := c) rfl [ask, ask]
      (show _ = [_] ++ _ :: [] from rfl)
      (Nat.lt_of_le_of_lt List.countP_le_length (by decide))

end Runs

end NtpQuery
