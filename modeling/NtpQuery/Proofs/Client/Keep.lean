import NtpQuery.Client.Query

/-!
# What a request keeps of its transport

A request sends one datagram, perhaps more than once, and receives what
comes. Whatever sending that datagram and receiving keep true of a
transport, the whole request keeps true of it. All that is known about
the transport after a request is an instance of `Client.attempt_keeps`.
-/

namespace NtpQuery

namespace Client

variable {τ : Type} [Transport τ] {I : τ → Prop}

/-- **Receiving a response** keeps what receiving keeps. -/
theorem collect_keeps
    (hrecv : ∀ t size wait, I t → I (Transport.recv t size wait).2)
    (opcode : Opcode) (sequence : UInt16) (first further : UInt64)
    (a : Assembly) (scratch : Bytes) (t : τ) (ht : I t) :
    I (collect opcode sequence first further a scratch t).2.2 := by
  fun_induction collect opcode sequence first further a scratch t
  case case1 => exact hrecv _ _ _ ht
  case case2 ih => exact ih (hrecv _ _ _ ht)
  case case3 => exact hrecv _ _ _ ht
  case case4 => exact hrecv _ _ _ ht
  case case5 => exact hrecv _ _ _ ht
  case case6 ih => exact ih (hrecv _ _ _ ht)

/-- **Attempting a request** keeps what sending its datagram and
receiving keep. -/
theorem attempt_keeps (peer : SocketAddr) (request : Bytes)
    (hsend : ∀ t, I t → I (Transport.send t peer request).2)
    (hrecv : ∀ t size wait, I t → I (Transport.recv t size wait).2)
    (opcode : Opcode) (sequence : UInt16) (first further : UInt64)
    (retries : Nat) (scratch : Bytes) (t : τ) (ht : I t) :
    I (attempt opcode sequence first further peer request retries scratch
      t).2.2 := by
  have hsent : ∀ {t t' : τ} {r : Except NetError Unit},
      Transport.send t peer request = (r, t') → I t → I t' := by
    intro t t' r h ht
    have h' := hsend t ht
    rwa [h] at h'
  have hcollected : ∀ {b b' : Bytes} {t t' : τ}
      {r : Except ClientError Response},
      collect opcode sequence first further .empty b t = (r, b', t') →
      I t → I t' := by
    intro b b' t t' r h ht
    have h' := collect_keeps hrecv opcode sequence first further .empty b t ht
    rwa [h] at h'
  fun_induction attempt opcode sequence first further peer request retries
    scratch t
  case case1 h => exact hsent h ht
  case case2 h _ _ h' => exact hcollected h' (hsent h ht)
  case case3 h _ _ h' _ ih => exact ih (hcollected h' (hsent h ht))
  case case4 h _ =>
    exact collect_keeps hrecv opcode sequence first further .empty _ _
      (hsent h ht)

end Client

end NtpQuery
