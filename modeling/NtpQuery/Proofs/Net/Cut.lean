import NtpQuery.Net.Exchange
import NtpQuery.Net.Udp

/-!
# Transports that cut datagrams

A datagram that is longer than the buffer it is received into is cut, and
what is cut off is lost. So the size of the buffer decides how much of a
datagram comes through, and nothing else: which datagram it is, whether
the wait fails, and what is left to be received are the same for every
size (`Transport.Cuts`).
-/

namespace NtpQuery

/-- **A transport that cuts datagrams** to the size of the buffer. -/
def Transport.Cuts (τ : Type) [Transport τ] : Prop :=
  ∀ (t : τ) (wait : UInt64), ∃ (arrival : Except NetError Bytes) (u : τ),
    ∀ size, Transport.recv t size wait = (arrival.map (List.take size), u)

/-- An exchange with a peer cuts datagrams, whoever the peer is. -/
theorem Exchange.cuts (σ : Type) [Responder σ] :
    Transport.Cuts (Exchange σ) := by
  rintro ⟨responder, queue⟩ wait
  cases queue with
  | nil => exact ⟨.error .timedOut, ⟨responder, []⟩, fun _ => rfl⟩
  | cons arrival rest =>
    cases arrival with
    | datagram d => exact ⟨.ok d, ⟨responder, rest⟩, fun _ => rfl⟩
    | failure e => exact ⟨.error e, ⟨responder, rest⟩, fun _ => rfl⟩

/-- So does a socket. -/
theorem Udp.cuts : Transport.Cuts Udp := by
  rintro ⟨reachable, nextPort, socket⟩ wait
  cases socket with
  | none => exact ⟨.error .notConnected, ⟨_, _, none⟩, fun _ => rfl⟩
  | some s =>
    obtain ⟨port, peer, inbox⟩ := s
    cases inbox with
    | nil => exact ⟨.error .wouldBlock, ⟨_, _, some _⟩, fun _ => rfl⟩
    | cons d rest =>
      exact ⟨.ok d, ⟨_, _, some ⟨port, peer, rest⟩⟩, fun _ => rfl⟩

end NtpQuery
