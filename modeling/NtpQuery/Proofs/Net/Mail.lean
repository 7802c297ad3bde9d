import NtpQuery.Net.Exchange
import NtpQuery.Wire.Header

/-!
# Mail that knows where it belongs

A `Mail` is an `Exchange` in which everything that waits is marked with
the number of the sending that brought it, and in which what has been
received stays on record. The marks are for the reader alone: without
them a `Mail` is the `Exchange` that it stands for (`Mail.forget`).

Whether a reply belongs to a request cannot be seen from outside; a peer
that `Echoes` at least repeats the sequence number of the request in all
that it answers.
-/

namespace NtpQuery

/-- **The sequence number of an arrival**, if it is a datagram with a
header. -/
def Arrival.sequence? : Arrival → Option UInt16
  | datagram bytes =>
    match Header.decode bytes with
    | .ok h => some h.sequence
    | .error _ => none
  | failure _ => none

/-- **A peer that repeats sequence numbers**: whatever it answers to a
request carries the number of the request, if it carries any. -/
def Responder.Echoes (σ : Type) [Responder σ] : Prop :=
  ∀ (s : σ) (peer : SocketAddr) (request : Bytes) (h : Header),
    Header.decode request = .ok h →
    ∀ x ∈ (react s peer request).1.arrivals, ∀ n ∈ x.sequence?,
      n = h.sequence

/-- **An exchange whose arrivals are marked** with the number of the
sending that brought them. -/
structure Mail (σ : Type) where
  /-- The peer. -/
  responder : σ
  /-- What waits to be received, oldest first. -/
  queue : List (Nat × Arrival)
  /-- How many datagrams were sent. -/
  sendings : Nat
  /-- What was received, oldest first. -/
  received : List (Nat × Arrival)
  /-- How often the socket was dropped. -/
  closings : Nat

namespace Mail

variable {σ : Type}

/-- The exchange without the marks. -/
def forget (t : Mail σ) : Exchange σ :=
  ⟨t.responder, t.queue.map (·.2)⟩

/-- Sends a datagram: what it brings joins the end of the queue. -/
def send [Responder σ] (t : Mail σ) (peer : SocketAddr)
    (datagram : Bytes) : Except NetError Unit × Mail σ :=
  let (reaction, responder) := Responder.react t.responder peer datagram
  let t := { t with
    responder := responder
    queue := t.queue ++ reaction.arrivals.map fun x => (t.sendings, x)
    sendings := t.sendings + 1 }
  match reaction.refusal with
  | some error => (.error error, t)
  | none => (.ok (), t)

/-- Receives what has waited longest. -/
def recv (t : Mail σ) (size : Nat) : Except NetError Bytes × Mail σ :=
  match t.queue with
  | [] => (.error .timedOut, t)
  | (n, x) :: rest =>
    let t := { t with queue := rest, received := t.received ++ [(n, x)] }
    match x with
    | .datagram bytes => (.ok (bytes.take size), t)
    | .failure error => (.error error, t)

/-- Drops the socket and all that waits. -/
def close (t : Mail σ) : Mail σ :=
  { t with queue := [], closings := t.closings + 1 }

/-- Without the marks, sending is sending in an exchange. -/
theorem send_forget [Responder σ] (t : Mail σ) (peer : SocketAddr)
    (d : Bytes) :
    t.forget.send peer d = ((t.send peer d).1, (t.send peer d).2.forget) := by
  unfold send Exchange.send forget
  dsimp only
  cases (Responder.react t.responder peer d).1.refusal
  all_goals
    dsimp only
    rw [List.map_append, List.map_map]
    exact congrArg _ (congrArg _ (congrArg _ (List.map_id _).symm))

/-- Without the marks, receiving is receiving in an exchange. -/
theorem recv_forget (t : Mail σ) (size : Nat) :
    t.forget.recv size = ((t.recv size).1, (t.recv size).2.forget) := by
  obtain ⟨responder, queue, sendings, received, closings⟩ := t
  unfold recv Exchange.recv forget
  cases queue with
  | nil => rfl
  | cons e rest =>
    obtain ⟨n, x⟩ := e
    cases x <;> rfl

theorem length_queue_recv_lt {t : Mail σ} {size : Nat} {d : Bytes}
    (h : (t.recv size).1 = .ok d) :
    (t.recv size).2.queue.length < t.queue.length := by
  have hlt := @Exchange.length_queue_recv_lt _ t.forget size d
    (by rw [recv_forget]; exact h)
  rw [recv_forget] at hlt
  unfold forget at hlt
  rwa [List.length_map, List.length_map] at hlt

theorem length_recv_le {t : Mail σ} {size : Nat} {d : Bytes}
    (h : (t.recv size).1 = .ok d) : d.length ≤ size := by
  refine Exchange.length_recv_le (t := t.forget) ?_
  rw [recv_forget]
  exact h

end Mail

instance {σ : Type} [Responder σ] : Transport (Mail σ) where
  send := Mail.send
  recv t size _ := t.recv size
  close := Mail.close
  pending t := t.queue.length
  pending_recv_lt := Mail.length_queue_recv_lt
  length_recv_le := Mail.length_recv_le

namespace Mail

variable {σ : Type} [Responder σ]

/-- **What is known of all mail** between two states: of what waits, and
of what has been received since some of it had been. -/
structure Within (P : Nat × Arrival → Prop) (old : List (Nat × Arrival))
    (t : Mail σ) : Prop where
  /-- It is known of what waits. -/
  queue : ∀ e ∈ t.queue, P e
  /-- It is known of what has been received since. -/
  received : ∃ new, t.received = old ++ new ∧ ∀ e ∈ new, P e

variable {P : Nat × Arrival → Prop} {old : List (Nat × Arrival)}
variable {t : Mail σ}

omit [Responder σ] in
/-- Receiving moves mail from the queue to the record. -/
theorem Within.recv (h : t.Within P old) (size : Nat) :
    (t.recv size).2.Within P old := by
  obtain ⟨hqueue, new, hreceived, hnew⟩ := h
  unfold Mail.recv
  split
  · exact ⟨hqueue, new, hreceived, hnew⟩
  next n x rest hfront =>
    have hfirst : P (n, x) := hqueue _ (by rw [hfront]; exact List.mem_cons_self)
    have hrest : ∀ e ∈ rest, P e := fun e he =>
      hqueue e (by rw [hfront]; exact List.mem_cons_of_mem _ he)
    have hmore : ∃ new, t.received ++ [(n, x)] = old ++ new
        ∧ ∀ e ∈ new, P e := by
      refine ⟨new ++ [(n, x)], ?_, ?_⟩
      · rw [hreceived, List.append_assoc]
      · intro e he
        cases List.mem_append.mp he with
        | inl he => exact hnew e he
        | inr he =>
          rw [List.mem_singleton.mp he]
          exact hfirst
    cases x <;> exact ⟨hrest, hmore⟩

/-- Sending adds what the peer answers to the queue. -/
theorem Within.send (h : t.Within P old) {peer : SocketAddr} {d : Bytes}
    (hreact : ∀ x ∈ (Responder.react t.responder peer d).1.arrivals,
      P (t.sendings, x)) :
    (t.send peer d).2.Within P old := by
  have hqueue : ∀ e ∈ t.queue
      ++ (Responder.react t.responder peer d).1.arrivals.map
        (fun x => (t.sendings, x)), P e := by
    intro e he
    cases List.mem_append.mp he with
    | inl he => exact h.queue e he
    | inr he =>
      obtain ⟨x, hx, rfl⟩ := List.mem_map.mp he
      exact hreact x hx
  unfold Mail.send
  dsimp only
  cases (Responder.react t.responder peer d).1.refusal
  · exact ⟨hqueue, h.received⟩
  · exact ⟨hqueue, h.received⟩

theorem sendings_send (t : Mail σ) (peer : SocketAddr) (d : Bytes) :
    (t.send peer d).2.sendings = t.sendings + 1 := by
  unfold Mail.send
  dsimp only
  cases (Responder.react t.responder peer d).1.refusal <;> rfl

theorem closings_send (t : Mail σ) (peer : SocketAddr) (d : Bytes) :
    (t.send peer d).2.closings = t.closings := by
  unfold Mail.send
  dsimp only
  cases (Responder.react t.responder peer d).1.refusal <;> rfl

omit [Responder σ] in
theorem counts_recv (t : Mail σ) (size : Nat) :
    (t.recv size).2.sendings = t.sendings
      ∧ (t.recv size).2.closings = t.closings := by
  unfold Mail.recv
  split
  · exact ⟨rfl, rfl⟩
  next n x rest _ => cases x <;> exact ⟨rfl, rfl⟩

end Mail

end NtpQuery
