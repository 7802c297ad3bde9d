import NtpQuery.Bytes
import NtpQuery.Net.Address
import NtpQuery.Net.Error

/-!
# Transports

A transport exchanges datagrams with one peer at a time. The client is
written over any type with the three operations of `Transport`; a
session may talk through a socket, through a scripted peer, or through
one of the two.

Only finitely many datagrams wait at any time, and receiving one leaves
fewer: `Transport.pending_recv_lt` is what makes the client's loop over
received datagrams end.

`Traced` wraps a transport and keeps the list of what was asked of it.
-/

namespace NtpQuery

/-- **A transport for datagrams.** -/
class Transport (τ : Type) where
  /-- Sends one datagram to a peer. -/
  send : τ → SocketAddr → Bytes → Except NetError Unit × τ
  /-- Receives one datagram into a buffer of `size` bytes, waiting at
  most `wait` milliseconds. A datagram that is longer than the buffer is
  cut. -/
  recv : τ → (size : Nat) → (wait : UInt64) → Except NetError Bytes × τ
  /-- Drops any open socket. -/
  close : τ → τ
  /-- The number of datagrams that are waiting to be received. -/
  pending : τ → Nat
  /-- Receiving a datagram leaves fewer of them. -/
  pending_recv_lt {t : τ} {size : Nat} {wait : UInt64} {d : Bytes} :
    (recv t size wait).1 = .ok d → pending (recv t size wait).2 < pending t
  /-- A received datagram fits the buffer. -/
  length_recv_le {t : τ} {size : Nat} {wait : UInt64} {d : Bytes} :
    (recv t size wait).1 = .ok d → d.length ≤ size

/-- **One thing that can be received.** -/
inductive Arrival where
  /-- A datagram. -/
  | datagram (bytes : Bytes)
  /-- A failure of the receive operation. -/
  | failure (error : NetError)
  deriving DecidableEq, Repr

/-- **One thing that was asked of a transport**, and what came of it. -/
inductive NetEvent where
  /-- A datagram was to be sent; with an error, it was not. -/
  | send (peer : SocketAddr) (datagram : Bytes) (refusal : Option NetError)
  /-- A datagram was awaited for so many milliseconds. -/
  | recv (wait : UInt64) (arrival : Arrival)
  /-- The socket was dropped. -/
  | close
  deriving DecidableEq, Repr

/-- The event of a send operation with this result. -/
def NetEvent.ofSend (peer : SocketAddr) (datagram : Bytes) :
    Except NetError Unit → NetEvent
  | .ok () => send peer datagram none
  | .error error => send peer datagram (some error)

/-- The event of a receive operation with this result. -/
def NetEvent.ofRecv (wait : UInt64) : Except NetError Bytes → NetEvent
  | .ok bytes => recv wait (.datagram bytes)
  | .error error => recv wait (.failure error)

/-- **A transport that keeps account** of what is asked of it. -/
structure Traced (τ : Type) where
  /-- The transport that does the work. -/
  inner : τ
  /-- What was asked of it, oldest first. -/
  events : List NetEvent

instance {τ : Type} [Transport τ] : Transport (Traced τ) where
  send t peer datagram :=
    let answer := Transport.send t.inner peer datagram
    (answer.1, ⟨answer.2, t.events ++ [.ofSend peer datagram answer.1]⟩)
  recv t size wait :=
    let answer := Transport.recv t.inner size wait
    (answer.1, ⟨answer.2, t.events ++ [.ofRecv wait answer.1]⟩)
  close t := ⟨Transport.close t.inner, t.events ++ [.close]⟩
  pending t := Transport.pending t.inner
  pending_recv_lt h := Transport.pending_recv_lt h
  length_recv_le h := Transport.length_recv_le h

instance {σ τ : Type} [Transport σ] [Transport τ] : Transport (σ ⊕ τ) where
  send
    | .inl t, peer, datagram =>
      let (result, t) := Transport.send t peer datagram
      (result, .inl t)
    | .inr t, peer, datagram =>
      let (result, t) := Transport.send t peer datagram
      (result, .inr t)
  recv
    | .inl t, size, wait =>
      let (result, t) := Transport.recv t size wait
      (result, .inl t)
    | .inr t, size, wait =>
      let (result, t) := Transport.recv t size wait
      (result, .inr t)
  close
    | .inl t => .inl (Transport.close t)
    | .inr t => .inr (Transport.close t)
  pending
    | .inl t => Transport.pending t
    | .inr t => Transport.pending t
  pending_recv_lt {t _ _ _} h := by
    cases t <;> exact Transport.pending_recv_lt h
  length_recv_le {t _ _ _} h := by
    cases t <;> exact Transport.length_recv_le h

end NtpQuery
