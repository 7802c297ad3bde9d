import NtpQuery.Net.Exchange

/-!
# What a traced transport has sent

Of all that a `Traced` transport keeps account of, the datagrams given to
it for sending are the part that a peer can see. Only sending adds to
them.
-/

namespace NtpQuery

/-- The datagram of an event that is a send operation, with its peer. -/
def NetEvent.sent? : NetEvent → Option (SocketAddr × Bytes)
  | send peer datagram _ => some (peer, datagram)
  | recv _ _ => none
  | close => none

namespace Traced

variable {τ : Type} [Transport τ]

/-- **The datagrams that were to be sent**, oldest first. -/
def sent (t : Traced τ) : List (SocketAddr × Bytes) :=
  t.events.filterMap NetEvent.sent?

theorem sent_send (t : Traced τ) (peer : SocketAddr) (d : Bytes) :
    (Transport.send t peer d).2.sent = t.sent ++ [(peer, d)] := by
  show List.filterMap _ (t.events ++ [NetEvent.ofSend peer d _]) = _
  rw [List.filterMap_append]
  cases (Transport.send t.inner peer d).1 <;> rfl

theorem sent_recv (t : Traced τ) (size : Nat) (wait : UInt64) :
    (Transport.recv t size wait).2.sent = t.sent := by
  show List.filterMap _ (t.events ++ [NetEvent.ofRecv wait _]) = _
  rw [List.filterMap_append]
  cases (Transport.recv t.inner size wait).1 <;> exact List.append_nil _

theorem sent_close (t : Traced τ) : (Transport.close t).sent = t.sent := by
  show List.filterMap _ (t.events ++ [NetEvent.close]) = _
  rw [List.filterMap_append]
  exact List.append_nil _

/-- A datagram whose sending succeeds brings its arrivals, and they
alone wait if nothing did. -/
theorem send_of_react {σ : Type} [Responder σ] {t : Traced (Exchange σ)}
    {peer : SocketAddr} {d : Bytes} {arrivals : List Arrival}
    (hqueue : t.inner.queue = [])
    (hreact : (Responder.react t.inner.responder peer d).1
      = ⟨arrivals, none⟩) :
    (Transport.send t peer d).1 = .ok ()
      ∧ (Transport.send t peer d).2.inner.queue = arrivals := by
  show (t.inner.send peer d).1 = _ ∧ (t.inner.send peer d).2.queue = _
  unfold Exchange.send
  dsimp only
  rw [hreact, hqueue]
  exact ⟨rfl, rfl⟩

end Traced

namespace Exchange

variable {σ : Type}

/-- The datagram that has waited longest is received, cut to the
buffer. -/
theorem recv_cons {t : Exchange σ} {d : Bytes} {rest : List Arrival}
    (h : t.queue = .datagram d :: rest) (size : Nat) :
    t.recv size = (.ok (d.take size), { t with queue := rest }) := by
  unfold recv
  rw [h]

end Exchange

end NtpQuery
