import NtpQuery.Client.Query

/-!
# One datagram at a time

`Client.collect` receives into a borrowed buffer, gives the datagram a
verdict and goes on. A received datagram fits the buffer, so what is read
back is the datagram itself and the buffer's earlier content plays no
part. Every later fact about receiving is read off the two equations
here, one for a wait that fails and one for a datagram that arrives.
-/

namespace NtpQuery

namespace Client

variable {τ : Type} [Transport τ]
variable {opcode : Opcode} {sequence : UInt16} {first further : UInt64}
variable {a : Assembly} {scratch : Bytes} {t t' : τ}

/-- How long the next datagram is awaited: shorter once a fragment has
been accepted. -/
def patience (first further : UInt64) (a : Assembly) : UInt64 :=
  if a.isEmpty then first else further

/-- **A wait that fails** ends the receiving. -/
theorem collect_of_error {e : NetError}
    (h : Transport.recv t scratch.length (patience first further a)
      = (.error e, t')) :
    collect opcode sequence first further a scratch t
      = (.error (waitFailure a e), scratch, t') := by
  unfold patience at h
  rw [collect, h]

/-- **A datagram that arrives** is judged by itself, whatever the buffer
held before. -/
theorem collect_of_datagram {d : Bytes}
    (h : Transport.recv t scratch.length (patience first further a)
      = (.ok d, t')) :
    collect opcode sequence first further a scratch t
      = match verdict opcode sequence d with
        | .foreign =>
          collect opcode sequence first further a
            (Bytes.overlay scratch d) t'
        | .refused code =>
          (.error (.refused code), Bytes.overlay scratch d, t')
        | .fragment f =>
          match a.insert f with
          | .error e =>
            (.error (.protocol e), Bytes.overlay scratch d, t')
          | .ok b =>
            if b.isComplete then
              (.ok b.response, Bytes.overlay scratch d, t')
            else
              collect opcode sequence first further b
                (Bytes.overlay scratch d) t' := by
  have hfit : d.length ≤ scratch.length :=
    Transport.length_recv_le (congrArg Prod.fst h)
  unfold patience at h
  rw [collect, h]
  dsimp only
  rewrite [Bytes.take_overlay hfit]
  rfl

/-- **An attempt that is answered** is over with the response: what was
sent first is all that is sent. -/
theorem attempt_of_collect {peer : SocketAddr} {request scratch' : Bytes}
    {retries : Nat} {r : Response}
    (hsend : (Transport.send t peer request).1 = .ok ())
    (hcollect : collect opcode sequence first further .empty scratch
      (Transport.send t peer request).2 = (.ok r, scratch', t')) :
    attempt opcode sequence first further peer request retries scratch t
      = (.ok r, scratch', t') := by
  unfold attempt
  rw [show Transport.send t peer request
      = (.ok (), (Transport.send t peer request).2) from Prod.ext hsend rfl]
  dsimp only
  rw [hcollect]

end Client

end NtpQuery
