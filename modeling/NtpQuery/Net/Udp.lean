import NtpQuery.Net.Transport

/-!
# UDP sockets

`Udp` is the transport over a UDP socket that is connected to one peer
at a time. A datagram to the peer of the open socket leaves through that
socket; for any other peer a new socket is opened first, and the old one
is dropped with all that was waiting in it. Receiving needs an open
socket.

A host that is cut off from the network can open sockets but connects
none of them.
-/

namespace NtpQuery

/-- **An open socket.** -/
structure Udp.Socket where
  /-- The local port, by which replies find the socket. -/
  port : Nat
  /-- The peer that the socket is connected to. -/
  peer : SocketAddr
  /-- The datagrams that wait to be received, oldest first. -/
  inbox : List Bytes

/-- **A UDP endpoint** with at most one open socket. -/
structure Udp where
  /-- Whether the network can be reached. -/
  reachable : Bool
  /-- The next local port to be given out. -/
  nextPort : Nat
  /-- The open socket. -/
  socket : Option Udp.Socket

namespace Udp

/-- An endpoint without a socket. -/
def closed (reachable : Bool) : Udp := ⟨reachable, 0, none⟩

/-- Whether the open socket can be used for a peer. -/
def reusable (u : Udp) (peer : SocketAddr) : Bool :=
  u.socket.any (·.peer == peer)

/-- Makes sure that a socket for the peer is open. -/
def connect (u : Udp) (peer : SocketAddr) : Except NetError Unit × Udp :=
  if u.reusable peer then (.ok (), u)
  else if u.reachable then
    (.ok (), { u with
      nextPort := u.nextPort + 1
      socket := some ⟨u.nextPort, peer, []⟩ })
  else (.error (.os 101), u)

/-- The next datagram in the open socket, cut to `size` bytes. -/
def recv (u : Udp) (size : Nat) : Except NetError Bytes × Udp :=
  match u.socket with
  | none => (.error .notConnected, u)
  | some ⟨_, _, []⟩ => (.error .wouldBlock, u)
  | some ⟨port, peer, d :: rest⟩ =>
    (.ok (d.take size), { u with socket := some ⟨port, peer, rest⟩ })

/-- **A datagram arrives** from a peer at a local port. It is lost unless
the open socket has that port and is connected to that peer. -/
def deliver (u : Udp) (port : Nat) (sender : SocketAddr) (datagram : Bytes) :
    Udp :=
  { u with
    socket := u.socket.map fun s =>
      if s.port == port && s.peer == sender then
        { s with inbox := s.inbox ++ [datagram] }
      else s }

/-- The number of datagrams that wait. -/
def waiting (u : Udp) : Nat :=
  match u.socket with
  | none => 0
  | some s => s.inbox.length

theorem waiting_recv_lt {u : Udp} {size : Nat} {d : Bytes}
    (h : (u.recv size).1 = .ok d) : (u.recv size).2.waiting < u.waiting := by
  unfold recv at h ⊢
  split at h <;> simp_all [waiting]

theorem length_recv_le {u : Udp} {size : Nat} {d : Bytes}
    (h : (u.recv size).1 = .ok d) : d.length ≤ size := by
  unfold recv at h
  split at h
  · simp at h
  · simp at h
  · simp only [Except.ok.injEq] at h
    subst h
    exact List.length_take_le ..

end Udp

instance : Transport Udp where
  send u peer _ := u.connect peer
  recv u size _ := u.recv size
  close u := { u with socket := none }
  pending := Udp.waiting
  pending_recv_lt := Udp.waiting_recv_lt
  length_recv_le := Udp.length_recv_le

end NtpQuery
