import NtpQuery.Net.Transport

/-!
# Exchanges with a responding peer

An `Exchange` is a transport whose other side is a function: a
`Responder` sees each datagram that is sent and decides what will
arrive because of it. Arrivals wait in a queue and are received in
order; with an empty queue every wait runs out of time. Dropping the
socket drops what waits.
-/

namespace NtpQuery

/-- What comes of sending one datagram. -/
structure Reaction where
  /-- What will arrive, in order. -/
  arrivals : List Arrival
  /-- The error that the send operation itself fails with, if any. -/
  refusal : Option NetError

/-- **A peer that reacts to datagrams**, with a state of its own. -/
class Responder (σ : Type) where
  /-- The reaction to a datagram sent to an address. -/
  react : σ → SocketAddr → Bytes → Reaction × σ

/-- A conversation with a responding peer. -/
structure Exchange (σ : Type) where
  /-- The peer. -/
  responder : σ
  /-- What waits to be received, oldest first. -/
  queue : List Arrival

namespace Exchange

variable {σ : Type}

/-- Sends a datagram: what it brings joins the end of the queue. -/
def send [Responder σ] (t : Exchange σ) (peer : SocketAddr)
    (datagram : Bytes) : Except NetError Unit × Exchange σ :=
  let (reaction, responder) := Responder.react t.responder peer datagram
  let t := ⟨responder, t.queue ++ reaction.arrivals⟩
  match reaction.refusal with
  | some error => (.error error, t)
  | none => (.ok (), t)

/-- Receives what has waited longest. -/
def recv (t : Exchange σ) (size : Nat) :
    Except NetError Bytes × Exchange σ :=
  match t.queue with
  | [] => (.error .timedOut, t)
  | .datagram bytes :: rest => (.ok (bytes.take size), { t with queue := rest })
  | .failure error :: rest => (.error error, { t with queue := rest })

theorem length_queue_recv_lt {t : Exchange σ} {size : Nat} {d : Bytes}
    (h : (t.recv size).1 = .ok d) :
    (t.recv size).2.queue.length < t.queue.length := by
  unfold recv at h ⊢
  split at h <;> simp_all

theorem length_recv_le {t : Exchange σ} {size : Nat} {d : Bytes}
    (h : (t.recv size).1 = .ok d) : d.length ≤ size := by
  unfold recv at h
  split at h
  · simp at h
  · simp only [Except.ok.injEq] at h
    subst h
    exact List.length_take_le ..
  · simp at h

end Exchange

instance {σ : Type} [Responder σ] : Transport (Exchange σ) where
  send := Exchange.send
  recv t size _ := t.recv size
  close t := { t with queue := [] }
  pending t := t.queue.length
  pending_recv_lt := Exchange.length_queue_recv_lt
  length_recv_le := Exchange.length_recv_le

end NtpQuery
