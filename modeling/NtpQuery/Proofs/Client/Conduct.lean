import NtpQuery.Net.Script
import NtpQuery.Proofs.Client.Host
import NtpQuery.Proofs.Client.Trials

/-!
# The conduct of queries

The record of a query over a responding peer is that of its trials:
receiving hears what waits (`Client.collect_hears`), and the attempts are
trials one after another (`Client.attempt_tries`). So the query conducts
itself as `Client.Conduct` says, whatever the peer answers
(`Client.query_conduct`).

What is heard is what the peer has brought into the queue, in its order
(`Traced.Tried`). So a request that is ignored is sent as often as it may be
(`Client.Tries.of_ignored`), and a refusal ends the query as soon as its
turn comes (`Client.Hears.of_front`).

A query comes to an end soon. A trial takes from the queue all that it
hears, but for the one wait at its end that may find the queue empty. What
was in the queue has waited there before or was brought by the query's own
sendings (`Responder.arrivals`).
-/

namespace NtpQuery

variable {σ : Type} [Responder σ]

/-- **What sending a datagram some times brings.** -/
def Responder.arrivals (peer : SocketAddr) (datagram : Bytes) :
    Nat → σ → List Arrival
  | 0, _ => []
  | n + 1, s =>
    (react s peer datagram).1.arrivals
      ++ arrivals peer datagram n (react s peer datagram).2

/-- **A peer that ignores a datagram**, so many times that it is sent. -/
def Responder.Ignores (peer : SocketAddr) (datagram : Bytes) :
    Nat → σ → Prop
  | 0, _ => True
  | n + 1, s => (react s peer datagram).1.refusal = none
    ∧ (react s peer datagram).1.arrivals = []
    ∧ Ignores peer datagram n (react s peer datagram).2

/-- An arrival as it is received into a buffer of some size. -/
def Arrival.cut (size : Nat) : Arrival → Arrival
  | datagram d => datagram (d.take size)
  | failure e => failure e

namespace Traced

omit [Responder σ] in
/-- **Listening**: so much has been heard since an earlier state. It is what
has waited longest in the queue, in order, and one wait beyond the end of
the queue finds nothing there. -/
structure Listened (size : Nat) (t : Traced (Exchange σ)) (heard : Heard)
    (t' : Traced (Exchange σ)) : Prop where
  /-- It is on record. -/
  events : t'.events = t.events ++ heard.map fun x => .recv x.1 x.2
  /-- The peer knows nothing of it. -/
  responder : t'.inner.responder = t.inner.responder
  /-- It has been in the queue. -/
  arrivals : heard.map Prod.snd
    <+: t.inner.queue.map (·.cut size) ++ [.failure .timedOut]
  /-- The others are still there. -/
  queue : t'.inner.queue = t.inner.queue.drop heard.length

variable {t u t' : Traced (Exchange σ)} {size : Nat} {wait : UInt64}

omit [Responder σ] in
/-- Nothing is heard beyond one wait that finds the queue empty. -/
theorem Listened.length_le {heard : Heard} (h : Listened size t heard t') :
    heard.length + t'.inner.queue.length ≤ t.inner.queue.length + 1 := by
  have hlength := h.arrivals.length_le
  rw [List.length_append, List.length_map, List.length_map,
    List.length_singleton] at hlength
  rw [h.queue, List.length_drop]
  omega

/-- A wait that fails has been heard. -/
theorem listened_of_error {e : NetError}
    (h : Transport.recv t size wait = (.error e, u)) :
    Listened size t [(wait, .failure e)] u := by
  obtain ⟨⟨responder, queue⟩, events⟩ := t
  cases queue with
  | nil =>
    obtain ⟨he, rfl⟩ := Prod.mk.inj h
    obtain rfl := Except.error.inj he
    exact ⟨rfl, rfl, List.prefix_refl _, rfl⟩
  | cons x queue =>
    cases x with
    | datagram d => exact absurd (Prod.mk.inj h).1 nofun
    | failure e' =>
      obtain ⟨he, rfl⟩ := Prod.mk.inj h
      obtain rfl := Except.error.inj he
      exact ⟨rfl, rfl, List.prefix_append [_] _, rfl⟩

/-- A datagram that arrives has waited longest in the queue. -/
theorem recv_ok {d : Bytes}
    (h : Transport.recv t size wait = (.ok d, u)) :
    u.events = t.events ++ [.recv wait (.datagram d)]
      ∧ u.inner.responder = t.inner.responder
      ∧ ∃ d', d = d'.take size
        ∧ t.inner.queue = .datagram d' :: u.inner.queue := by
  obtain ⟨⟨responder, queue⟩, events⟩ := t
  cases queue with
  | nil => exact absurd (Prod.mk.inj h).1 nofun
  | cons x queue =>
    cases x with
    | failure e => exact absurd (Prod.mk.inj h).1 nofun
    | datagram d' =>
      obtain ⟨hd, rfl⟩ := Prod.mk.inj h
      obtain rfl := Except.ok.inj hd
      exact ⟨rfl, rfl, d', rfl, rfl⟩

/-- **A datagram has been heard**, and nothing else yet. -/
theorem listened_of_ok {d : Bytes}
    (h : Transport.recv t size wait = (.ok d, u)) :
    Listened size t [(wait, .datagram d)] u := by
  obtain ⟨hevents, hresponder, d', rfl, hqueue⟩ := recv_ok h
  refine ⟨hevents, hresponder, ?_, ?_⟩
  · rw [hqueue]
    exact List.prefix_append [_] _
  · rw [hqueue]
    rfl

/-- What is heard after a datagram. -/
theorem Listened.cons {d : Bytes} {heard : Heard}
    (h : Transport.recv t size wait = (.ok d, u))
    (h' : Listened size u heard t') :
    Listened size t ((wait, .datagram d) :: heard) t' := by
  obtain ⟨hevents, hresponder, d', rfl, hqueue⟩ := recv_ok h
  refine ⟨?_, h'.responder.trans hresponder, ?_, ?_⟩
  · rw [h'.events, hevents, List.append_assoc]
    rfl
  · rw [hqueue]
    exact List.cons_prefix_cons.mpr ⟨rfl, h'.arrivals⟩
  · rw [h'.queue, hqueue]
    rfl

/-- **Sending** shows what the peer's reaction is. -/
theorem send_eq (t : Traced (Exchange σ)) (peer : SocketAddr)
    (datagram : Bytes) :
    Transport.send t peer datagram =
      ((Responder.react t.inner.responder peer datagram).1.refusal.elim
          (.ok ()) .error,
        ⟨⟨(Responder.react t.inner.responder peer datagram).2,
            t.inner.queue
              ++ (Responder.react t.inner.responder peer datagram).1.arrivals⟩,
          t.events ++ [.send peer datagram
            (Responder.react t.inner.responder peer datagram).1.refusal]⟩) := by
  dsimp only [Transport.send, Exchange.send]
  cases (Responder.react t.inner.responder peer datagram).1.refusal <;> rfl

/-- **Trying**: so many trials have been made since an earlier state. Each
sends the request, and then hears what waits in the queue by that time. -/
inductive Tried (peer : SocketAddr) (request : Bytes) (size : Nat) :
    Traced (Exchange σ) → List Client.Trial → Traced (Exchange σ) →
    Prop where
  /-- No trial has been made. -/
  | done (t : Traced (Exchange σ)) : Tried peer request size t [] t
  /-- The request could not be sent, and nothing was listened for. -/
  | refused {t : Traced (Exchange σ)} {e : NetError} :
    (Responder.react t.inner.responder peer request).1.refusal = some e →
    Tried peer request size t [⟨some e, []⟩] (Transport.send t peer request).2
  /-- The request was sent, so much was heard, and then there were some more
  trials. -/
  | heard {t u v : Traced (Exchange σ)} {heard : Heard}
    {trials : List Client.Trial} :
    (Responder.react t.inner.responder peer request).1.refusal = none →
    Listened size (Transport.send t peer request).2 heard u →
    Tried peer request size u trials v →
    Tried peer request size t (⟨none, heard⟩ :: trials) v

namespace Tried

variable {peer : SocketAddr} {request : Bytes} {trials : List Client.Trial}
variable {v : Traced (Exchange σ)}

/-- Trials are on record. -/
theorem events (h : Tried peer request size t trials v) :
    v.events = t.events ++ trials.flatMap (·.events peer request) := by
  induction h with
  | done t => exact (List.append_nil _).symm
  | refused h =>
    rw [send_eq, h]
    rfl
  | heard h hheard _ ih =>
    rw [ih, hheard.events, send_eq, h, List.flatMap_cons, List.append_assoc,
      List.append_assoc]
    rfl

/-- **What was heard** had waited before or was brought by the sendings,
but for one wait in each trial that may have found nothing there. -/
theorem length_le (h : Tried peer request size t trials v) :
    (trials.flatMap (·.heard)).length + v.inner.queue.length
      ≤ t.inner.queue.length
        + (Responder.arrivals peer request trials.length
          t.inner.responder).length
        + trials.length := by
  induction h with
  | done t => exact Nat.le_of_eq (Nat.zero_add _)
  | refused h =>
    rw [send_eq]
    simp only [List.flatMap_singleton, List.length_singleton,
      Responder.arrivals, List.length_append, List.length_nil]
    omega
  | heard h hheard _ ih =>
    have hlength := hheard.length_le
    rw [hheard.responder, send_eq] at ih
    rw [send_eq] at hlength
    rw [List.flatMap_cons, List.length_cons, Responder.arrivals]
    simp only [List.length_append] at hlength ih ⊢
    omega

/-- The first trial listens to what waits once the request has been sent. -/
theorem first {trial : Client.Trial}
    (h : Tried peer request size t (trial :: trials) v)
    (hsent : (Responder.react t.inner.responder peer request).1.refusal
      = none) :
    trial.refusal = none ∧ ∃ u,
      Listened size (Transport.send t peer request).2 trial.heard u
        ∧ Tried peer request size u trials v := by
  cases h with
  | refused h => exact nomatch hsent.symm.trans h
  | heard _ hheard hlater => exact ⟨rfl, _, hheard, hlater⟩

end Tried

end Traced

namespace Client

/-- **Receiving hears** what comes of it. -/
theorem collect_hears (opcode : Opcode) (sequence : UInt16)
    (first further : UInt64) (a : Assembly) (scratch : Bytes)
    (t : Traced (Exchange σ)) :
    let answer := collect opcode sequence first further a scratch t
    ∃ heard, Hears opcode sequence first further a heard answer.1
      ∧ t.Listened scratch.length heard answer.2.2
      ∧ answer.2.1.length = scratch.length := by
  induction hn : t.inner.queue.length using Nat.strongRecOn
    generalizing a scratch t with
  | ind n ih =>
    subst hn
    obtain ⟨⟨result, u⟩, h⟩ : ∃ answer, Transport.recv t scratch.length
        (patience first further a) = answer := ⟨_, rfl⟩
    cases result with
    | error e =>
      rw [collect_of_error h]
      exact ⟨_, .failed e, Traced.listened_of_error h, rfl⟩
    | ok d =>
      have hlength : (Bytes.overlay scratch d).length = scratch.length :=
        Bytes.length_overlay scratch d
      have hless : u.inner.queue.length < t.inner.queue.length := by
        obtain ⟨-, -, d', -, hqueue⟩ := Traced.recv_ok h
        rw [hqueue]
        exact Nat.lt_succ_self _
      have hheard := Traced.listened_of_ok h
      rw [collect_of_datagram h]
      cases hverdict : verdict opcode sequence d with
      | foreign =>
        obtain ⟨heard, hlater, hlistened, hsame⟩ :=
          ih _ hless a (Bytes.overlay scratch d) u rfl
        rw [hlength] at hlistened hsame
        exact ⟨_, .foreign hverdict hlater, .cons h hlistened, hsame⟩
      | refused code => exact ⟨_, .refused hverdict, hheard, hlength⟩
      | fragment f =>
        dsimp only
        cases hinsert : a.insert f with
        | error e => exact ⟨_, .clash hverdict hinsert, hheard, hlength⟩
        | ok b =>
          dsimp only
          cases hcomplete : b.isComplete with
          | true =>
            exact ⟨_, .complete hverdict hinsert hcomplete, hheard, hlength⟩
          | false =>
            obtain ⟨heard, hlater, hlistened, hsame⟩ :=
              ih _ hless b (Bytes.overlay scratch d) u rfl
            rw [hlength] at hlistened hsame
            exact ⟨_, .accepted hverdict hinsert hcomplete hlater,
              .cons h hlistened, hsame⟩

/-- **Attempts are trials** one after another. -/
theorem attempt_tries (opcode : Opcode) (sequence : UInt16)
    (first further : UInt64) (peer : SocketAddr) (request : Bytes)
    (retries : Nat) (scratch : Bytes) (t : Traced (Exchange σ)) :
    let answer := attempt opcode sequence first further peer request retries
      scratch t
    ∃ trials, Tries opcode sequence first further retries trials answer.1
      ∧ t.Tried peer request scratch.length trials answer.2.2 := by
  induction retries using Nat.strongRecOn generalizing scratch t with
  | ind retries ih =>
    have hsend : Transport.send t peer request
        = ((Responder.react t.inner.responder peer request).1.refusal.elim
            (.ok ()) .error, (Transport.send t peer request).2) :=
      Prod.ext (by rw [Traced.send_eq]) rfl
    unfold attempt
    rw [hsend]
    cases hrefusal :
      (Responder.react t.inner.responder peer request).1.refusal with
    | some e =>
      exact ⟨[⟨some e, []⟩],
        .last ⟨rfl, rfl⟩ fun h => absurd h (by simp), .refused hrefusal⟩
    | none =>
      obtain ⟨heard, hhears, hheard, hlength⟩ := collect_hears opcode sequence
        first further .empty scratch (Transport.send t peer request).2
      dsimp only [Option.elim]
      generalize collect opcode sequence first further .empty scratch
        (Transport.send t peer request).2 = answer at hhears hheard hlength ⊢
      obtain ⟨r, scratch', u⟩ := answer
      have hone : t.Tried peer request scratch.length [⟨none, heard⟩] u :=
        .heard hrefusal hheard (.done u)
      cases r with
      | ok r =>
        exact ⟨[⟨none, heard⟩],
          .last hhears fun h => absurd h (by simp), hone⟩
      | error e =>
        cases e with
        | timeout =>
          cases retries with
          | zero => exact ⟨[⟨none, heard⟩], .last hhears fun _ => rfl, hone⟩
          | succ retries =>
            obtain ⟨trials, htries, htried⟩ :=
              ih retries (Nat.lt_succ_self _) scratch' u
            rw [show scratch'.length = scratch.length from hlength] at htried
            exact ⟨⟨none, heard⟩ :: trials, .again hhears htries,
              .heard hrefusal hheard htried⟩
        | _ =>
          exact ⟨[⟨none, heard⟩],
            .last hhears fun h => absurd h (by simp), hone⟩

/-- **A query that has made its trials**: the request has been sent so
often, and what has been heard each time decides what comes of the query. -/
structure Conversation (opcode : Opcode) (sequence : UInt16)
    (first further : UInt64) (retries : Nat) (peer : SocketAddr)
    (request : Bytes) (size : Nat) (t : Traced (Exchange σ))
    (trials : List Trial) (t' : Traced (Exchange σ))
    (result : Except ClientError Response) : Prop where
  /-- Each trial listens until it is answered or a wait fails, and the
  result is that of the last. -/
  tries : Tries opcode sequence first further retries trials result
  /-- In each trial the request is sent, and what is heard is what waits
  then. -/
  tried : t.Tried peer request size trials t'
  /-- The trials are all that is on record. -/
  events : t'.events = t.events ++ trials.flatMap (·.events peer request)
  /-- If nothing waits and the peer ignores the request, it is sent as often
  as it may be, and the query times out. -/
  ignored : t.inner.queue = [] →
    Responder.Ignores peer request (retries + 1) t.inner.responder →
    result = .error .timeout ∧ trials
      = List.replicate (retries + 1) ⟨none, [(first, .failure .timedOut)]⟩
  /-- If what waits after the first sending begins with a response with the
  E bit, but for datagrams that have nothing to do with the request, then
  the request is not sent again, and the error is the high byte of the
  status word. -/
  refused : ∀ (noise : List Bytes) (d : Bytes) (later : List Arrival)
    (f : Fragment),
    (Transport.send t peer request).1 = .ok () →
    (Transport.send t peer request).2.inner.queue
      = noise.map Arrival.datagram ++ .datagram d :: later →
    (∀ d' ∈ noise, verdict opcode sequence (d'.take size) = .foreign) →
    Fragment.decode (d.take size) = .ok f → f.header.response = true →
    f.header.sequence = sequence → f.header.opcode = opcode.code →
    f.header.error = true →
    result = .error (.refused (UInt8.ofNat (f.header.status.toNat / 256)))
      ∧ ∃ heard, trials = [⟨none, heard⟩] ∧ heard.length = noise.length + 1

section

variable {opcode : Opcode} {sequence : UInt16} {first further : UInt64}
variable {a : Assembly} {heard : Heard} {r : Except ClientError Response}
variable {peer : SocketAddr} {request : Bytes} {size n : Nat}
variable {trials : List Trial} {t t' : Traced (Exchange σ)}

/-- **A datagram that reports an error** is the last that is heard. Only
such as have nothing to do with the request are in front of it. -/
theorem Hears.of_front {noise : List Bytes} {d : Bytes} {code : UInt8}
    {later : List Arrival}
    (h : Hears opcode sequence first further a heard r)
    (hfront : heard.map Prod.snd
      <+: noise.map Arrival.datagram ++ .datagram d :: later)
    (hnoise : ∀ d' ∈ noise, verdict opcode sequence d' = .foreign)
    (hd : verdict opcode sequence d = .refused code) :
    r = .error (.refused code) ∧ heard.length = noise.length + 1 := by
  induction noise generalizing heard with
  | nil =>
    obtain ⟨wait, later, rfl⟩ : ∃ wait later,
        heard = (wait, .datagram d) :: later := by
      cases h <;> simp_all
    obtain ⟨rfl, rfl⟩ := h.of_refused hd
    exact ⟨rfl, rfl⟩
  | cons d' noise ih =>
    have hforeign := hnoise d' List.mem_cons_self
    obtain ⟨wait, later', rfl⟩ : ∃ wait later',
        heard = (wait, .datagram d') :: later' := by
      cases h <;> simp_all
    have hrest := (List.cons_prefix_cons.mp hfront).2
    cases h with
    | foreign _ hlater =>
      obtain ⟨hr, hlength⟩ := ih hlater hrest
        fun d'' hd'' => hnoise d'' (List.mem_cons_of_mem d' hd'')
      exact ⟨hr, congrArg (· + 1) hlength⟩
    | _ h' => exact nomatch hforeign.symm.trans h'

/-- **A trial in which there is nothing to hear** waits once, for the first
time, and times out. -/
theorem Hears.of_nothing
    (h : Hears opcode sequence first further .empty heard r)
    (hnothing : heard.map Prod.snd <+: [.failure .timedOut]) :
    r = .error .timeout ∧ heard = [(first, .failure .timedOut)] := by
  obtain ⟨wait, later, rfl⟩ : ∃ wait later,
      heard = (wait, .failure .timedOut) :: later := by
    cases h <;> simp_all
  obtain rfl := h.wait_eq
  obtain ⟨rfl, rfl⟩ := h.of_failure
  exact ⟨rfl, rfl⟩

/-- **A trial that is ignored** hears nothing, and neither has anything to
hear for the next one. -/
theorem Trial.Ends.of_ignored {trial : Trial}
    (h : trial.Ends opcode sequence first further r)
    (htried : t.Tried peer request size (trial :: trials) t')
    (hqueue : t.inner.queue = [])
    (hpeer : Responder.Ignores peer request (n + 1) t.inner.responder) :
    r = .error .timeout ∧ trial = ⟨none, [(first, .failure .timedOut)]⟩
      ∧ ∃ u : Traced (Exchange σ), u.Tried peer request size trials t'
        ∧ u.inner.queue = []
        ∧ Responder.Ignores peer request n u.inner.responder := by
  obtain ⟨hrefusal, hnothing, hlater⟩ := hpeer
  obtain ⟨hsent, u, hheard, hmore⟩ := htried.first hrefusal
  have hempty : (Transport.send t peer request).2.inner.queue = [] := by
    rw [Traced.send_eq, hqueue, hnothing]
    rfl
  have hresponder : u.inner.responder
      = (Responder.react t.inner.responder peer request).2 := by
    rw [hheard.responder, Traced.send_eq]
  have harrivals := hheard.arrivals
  rw [hempty] at harrivals
  obtain ⟨refusal, heard⟩ := trial
  obtain rfl : refusal = none := hsent
  obtain ⟨hr, rfl⟩ := Hears.of_nothing h harrivals
  refine ⟨hr, rfl, u, hmore, ?_, hresponder ▸ hlater⟩
  rw [hheard.queue, hempty]
  rfl

/-- **A request that is ignored** is sent as often as it may be, and the
query times out. -/
theorem Tries.of_ignored
    (h : Tries opcode sequence first further n trials r)
    (htried : t.Tried peer request size trials t')
    (hqueue : t.inner.queue = [])
    (hpeer : Responder.Ignores peer request (n + 1) t.inner.responder) :
    r = .error .timeout ∧ trials
      = List.replicate (n + 1) ⟨none, [(first, .failure .timedOut)]⟩ := by
  induction h generalizing t with
  | last hends hlast =>
    obtain ⟨hr, rfl, -⟩ := hends.of_ignored htried hqueue hpeer
    rw [hlast hr]
    exact ⟨hr, rfl⟩
  | again hends _ ih =>
    obtain ⟨-, rfl, u, hmore, hempty, hlater⟩ :=
      hends.of_ignored htried hqueue hpeer
    obtain ⟨hr, htrials⟩ := ih hmore hempty hlater
    rw [htrials]
    exact ⟨hr, rfl⟩

/-- **Trials are a conversation** with what they have been tried on. -/
theorem Tries.conversation (h : Tries opcode sequence first further n trials r)
    (htried : t.Tried peer request size trials t') :
    Conversation opcode sequence first further n peer request size t trials
      t' r where
  tries := h
  tried := htried
  events := htried.events
  ignored := h.of_ignored htried
  refused noise d later f hsend hqueue hnoise hdecode hresponse hsequence
      hopcode herror := by
    have hverdict := verdict_of_error hdecode hresponse hsequence hopcode
      herror
    have hsent : (Responder.react t.inner.responder peer request).1.refusal
        = none := by
      rw [Traced.send_eq] at hsend
      cases hrefusal :
        (Responder.react t.inner.responder peer request).1.refusal with
      | none => rfl
      | some e => rw [hrefusal] at hsend; exact nomatch hsend
    obtain ⟨trial, more, rfl⟩ := List.exists_cons_of_ne_nil h.ne_nil
    obtain ⟨htrial, u, hheard, hmore⟩ := htried.first hsent
    obtain ⟨refusal, heard⟩ := trial
    obtain rfl : refusal = none := htrial
    have hfront : heard.map Prod.snd <+: (noise.map (List.take size)).map
        Arrival.datagram ++ .datagram (d.take size)
          :: (later.map (·.cut size) ++ [.failure .timedOut]) := by
      have harrivals := hheard.arrivals
      rw [hqueue, List.map_append, List.map_map, List.append_assoc]
        at harrivals
      rwa [List.map_map]
    have hfirst : ∀ r', Trial.Ends opcode sequence first further
        ⟨none, heard⟩ r' → r' = .error
          (.refused (UInt8.ofNat (f.header.status.toNat / 256)))
        ∧ heard.length = noise.length + 1 := by
      intro r' hends
      obtain ⟨hr, hlength⟩ := Hears.of_front hends hfront
        (List.forall_mem_map.mpr hnoise) hverdict
      rw [List.length_map] at hlength
      exact ⟨hr, hlength⟩
    obtain ⟨rfl, hr, hlength⟩ := h.last_of_ne (List.nil_append _).symm hfirst
      fun hno => nomatch hno.1
    exact ⟨hr, heard, rfl, hlength⟩

end

/-- Without trials a query conducts itself well unless it times out. -/
theorem conduct_nil {opcode : Opcode} {sequence : UInt16}
    {first further : UInt64} {retries : Nat}
    {r : Except ClientError Response} (hr : r ≠ .error .timeout) :
    Conduct opcode sequence first further retries [] r where
  most := Nat.zero_le _
  again h := absurd h (by simp)
  timeout := iff_of_false hr fun h => nomatch h.1
  refusal h := absurd h (by simp)
  wait h := absurd h (by simp)
  incomplete h := absurd h (by simp)
  failure h := absurd h (by simp)
  refused h := absurd h (by simp)

/-- **Finding an address** brings nothing into the queue, and the peer
knows nothing of it. -/
theorem serverAddress_exchange (c : Client (Traced (Exchange σ)))
    (w : World) :
    (c.serverAddress w).2.transport.inner.queue.length
        ≤ c.transport.inner.queue.length
      ∧ (c.serverAddress w).2.transport.inner.responder
        = c.transport.inner.responder := by
  rcases serverAddress_transport w c with h | h
  · rw [h]
    exact ⟨Nat.le_refl _, rfl⟩
  · rw [h]
    exact ⟨Nat.zero_le _, rfl⟩

section Querying

variable {c : Client (Traced (Exchange σ))} {w : World} {data : Bytes}

/-- **A query with an address and a request** makes its trials when the
address has been found. -/
theorem query_tries {opcode : Opcode} {assid : UInt16}
    {peer : SocketAddr} {request : Bytes}
    (hpeer : (c.serverAddress w).1 = .ok peer)
    (hrequest : c.nextRequest? opcode assid data = some request)
    (scratch : Bytes) :
    ∃ trials, Tries opcode (c.state.sequence + 1) c.state.timeout
        c.state.secondaryTimeout c.defaults.retries.toNat trials
        (c.query w opcode assid data scratch).result
      ∧ (c.serverAddress w).2.transport.Tried peer request scratch.length
        trials (c.query w opcode assid data scratch).client.transport := by
  rw [query_eq_attempt hpeer hrequest]
  exact attempt_tries ..

/-- **Any other query** does no more than find the address, and it fails,
though not for want of an answer. -/
theorem query_untried
    (h : ¬ ((c.serverAddress w).1.isOk = true ∧ data.length ≤ maxPayload))
    (opcode : Opcode) (assid : UInt16) (scratch : Bytes) :
    (c.query w opcode assid data scratch).client.transport
        = (c.serverAddress w).2.transport
      ∧ ∃ e, (c.query w opcode assid data scratch).result = .error e
        ∧ e ≠ .timeout := by
  cases hpeer : (c.serverAddress w).1 with
  | error e =>
    rw [query_of_no_address hpeer, serverAddress_of_error hpeer,
      serverAddress_error hpeer]
    exact ⟨rfl, _, rfl, by simp⟩
  | ok peer =>
    have hlong : maxPayload < data.length := by
      rw [hpeer] at h
      exact Nat.lt_of_not_le fun hfits => h ⟨rfl, hfits⟩
    obtain ⟨e, he⟩ : ∃ e, c.query w opcode assid data scratch
        = ⟨.error (.argument e), scratch, _⟩ :=
      query_of_too_long hpeer (nextRequest_eq_none_iff.mpr hlong)
    rw [he]
    exact ⟨rfl, _, rfl, by simp⟩

end Querying

/-- **The conduct of a query.** Whatever a client asks and whatever its peer
answers, the query is a row of trials that conducts itself as it should.
There is a trial if and only if there is a host and the data fit a message;
otherwise the query fails and nothing is on record. Each trial sends the
request and listens to what waits by then, and so the peer decides what
comes of the query. All in all, a query receives no more often than there
are things in the queue, before it or because of its sendings, and once more
for each sending. -/
theorem query_conduct (c : Client (Traced (Exchange σ))) (w : World)
    (opcode : Opcode) (assid : UInt16) (data scratch : Bytes) :
    let found := c.serverAddress w
    let o := c.query w opcode assid data scratch
    ∃ trials : List Trial,
      (trials ≠ [] ↔ found.1.isOk = true ∧ data.length ≤ 468)
      ∧ (trials = [] → o.result.isOk = false
        ∧ o.client.transport.events = found.2.transport.events)
      ∧ (∀ peer request, found.1 = .ok peer →
        c.nextRequest? opcode assid data = some request →
        Conversation opcode (c.state.sequence + 1) c.state.timeout
            c.state.secondaryTimeout c.defaults.retries.toNat peer request
            scratch.length found.2.transport trials o.client.transport
            o.result
          ∧ (trials.flatMap (·.heard)).length
            ≤ c.transport.inner.queue.length
              + (Responder.arrivals peer request trials.length
                c.transport.inner.responder).length
              + trials.length)
      ∧ Conduct opcode (c.state.sequence + 1) c.state.timeout
        c.state.secondaryTimeout c.defaults.retries.toNat trials
        o.result := by
  intro found o
  by_cases hsendable : found.1.isOk = true ∧ data.length ≤ 468
  · obtain ⟨peer, hpeer⟩ : ∃ peer, found.1 = .ok peer := by
      cases hfound : found.1 with
      | ok peer => exact ⟨peer, rfl⟩
      | error e =>
        rw [hfound] at hsendable
        exact absurd hsendable.1 Bool.false_ne_true
    obtain ⟨request, hrequest⟩ :=
      c.exists_nextRequest opcode assid hsendable.2
    obtain ⟨trials, htries, htried⟩ := query_tries hpeer hrequest scratch
    refine ⟨trials, iff_of_true htries.ne_nil hsendable,
      fun h => absurd h htries.ne_nil, ?_, htries.conduct⟩
    intro peer' request' hpeer' hrequest'
    obtain rfl := Except.ok.inj (hpeer.symm.trans hpeer')
    obtain rfl := Option.some.inj (hrequest.symm.trans hrequest')
    obtain ⟨hwaiting, hresponder⟩ := serverAddress_exchange c w
    have hqueue := htried.length_le
    rw [hresponder] at hqueue
    exact ⟨htries.conversation htried, by omega⟩
  · obtain ⟨htransport, e, hresult, he⟩ :=
      query_untried hsendable opcode assid scratch
    have hresult' : o.result = .error e := hresult
    refine ⟨[], iff_of_false (not_not_intro rfl) hsendable,
      fun _ => ⟨by rw [hresult']; rfl, congrArg Traced.events htransport⟩, ?_,
      conduct_nil ?_⟩
    · intro peer request hpeer hrequest
      refine absurd ⟨?_, Nat.le_of_not_lt fun hlong => ?_⟩ hsendable
      · rw [hpeer]
        rfl
      · rw [nextRequest_eq_none_iff.mpr hlong] at hrequest
        exact absurd hrequest (by simp)
    · rw [hresult']
      exact fun h => he (Except.error.inj h)

/-- A peer that ignores the request, one that refuses it behind a datagram
that cannot be read, and one that does so once the request is repeated. -/
theorem query_conduct_refused :
    let w : World := ⟨0, fun _ => [.v4 #v[192, 0, 2, 1]], .unlimited,
      fun _ => true⟩
    let mute : Script.Rule := ⟨none, none, some 1, [], 0⟩
    let refusing : Script.Rule :=
      ⟨none, none, none, [.raw [1, 2, 3],
        .fragment { error := true, status := 1280 } 0 false []], 0⟩
    let c (rules : List Script.Rule) : Client (Traced (Exchange Script)) :=
      .new {} ⟨⟨⟨rules⟩, []⟩, []⟩
    let o (rules : List Script.Rule) :=
      (c rules).query w .readVariables 77 [] (Bytes.zeros 480)
    let peer : SocketAddr := ⟨.v4 #v[192, 0, 2, 1], 123⟩
    let request : Bytes := [22, 2, 0, 1, 0, 0, 0, 77, 0, 0, 0, 0]
    let reply : Bytes := [22, 194, 0, 1, 5, 0, 0, 77, 0, 0, 0, 0]
    let sending : NetEvent := .send peer request none
    ((o []).result = .error .timeout
        ∧ (o []).client.transport.events
          = [.close, sending, .recv 5000 (.failure .timedOut),
            sending, .recv 5000 (.failure .timedOut)])
      ∧ ((o [refusing]).result = .error (.refused 5)
        ∧ (o [refusing]).client.transport.events.filter (· = sending)
          = [sending])
      ∧ (o [mute, refusing]).result = .error (.refused 5)
      ∧ ∃ trials, Tries .readVariables 1 5000 3000 1 trials
          (.error (.refused 5))
        ∧ trials.flatMap (·.events peer request)
          = [sending, .recv 5000 (.failure .timedOut), sending,
            .recv 5000 (.datagram [1, 2, 3]),
            .recv 5000 (.datagram reply)] := by
  intro w mute refusing c o peer request reply sending
  refine ⟨?ignored, ?refused, ?repeated⟩
  case ignored =>
    obtain ⟨trials, -, -, hgoes, -⟩ :=
      query_conduct (c []) w .readVariables 77 [] (Bytes.zeros 480)
    obtain ⟨hconversation, -⟩ :=
      hgoes peer request (by decide +kernel) (by decide +kernel)
    obtain ⟨hresult, rfl⟩ := hconversation.ignored (by decide +kernel)
      ⟨by decide +kernel, by decide +kernel, by decide +kernel,
        by decide +kernel, trivial⟩
    exact ⟨hresult, hconversation.events.trans (by decide +kernel)⟩
  case refused =>
    obtain ⟨trials, -, -, hgoes, -⟩ :=
      query_conduct (c [refusing]) w .readVariables 77 [] (Bytes.zeros 480)
    obtain ⟨hconversation, -⟩ :=
      hgoes peer request (by decide +kernel) (by decide +kernel)
    obtain ⟨hresult, -⟩ := hconversation.refused [[1, 2, 3]] reply []
      ⟨⟨2, true, true, false, 2, 1, 1280, 77, 0, 0⟩, []⟩
      (by decide +kernel) (by decide +kernel) (by decide +kernel)
      (by decide +kernel) rfl (by decide +kernel) rfl rfl
    exact ⟨hresult, by decide +kernel⟩
  case repeated =>
    obtain ⟨trials, -, -, hgoes, -⟩ := query_conduct (c [mute, refusing]) w
      .readVariables 77 [] (Bytes.zeros 480)
    obtain ⟨hconversation, -⟩ :=
      hgoes peer request (by decide +kernel) (by decide +kernel)
    have hresult : (o [mute, refusing]).result = .error (.refused 5) := by
      decide +kernel
    refine ⟨hresult, trials, hresult ▸ hconversation.tries, ?_⟩
    have hevents : (o [mute, refusing]).client.transport.events
        = .close :: ([sending, .recv 5000 (.failure .timedOut), sending,
          .recv 5000 (.datagram [1, 2, 3]),
          .recv 5000 (.datagram reply)] : List NetEvent) := by
      decide +kernel
    have hopened : ((c [mute, refusing]).serverAddress w).2.transport.events
        = [.close] := by decide +kernel
    have hboth := hevents.symm.trans hconversation.events
    rw [hopened] at hboth
    exact (List.cons.inj hboth).2.symm

end Client

end NtpQuery
