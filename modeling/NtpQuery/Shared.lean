import NtpQuery.Net.Udp
import NtpQuery.Session.Basic

/-!
# The shared session

A process has one session that all its parts share. It comes into being
when it is first used, with the usual defaults and a transport over UDP,
unless another session has been put in its place before.
-/

namespace NtpQuery

/-- **The place of the shared session.** -/
structure Shared (τ : Type) where
  /-- The session, once it is in use. -/
  session : Option (Session τ)

namespace Shared

variable {τ : Type}

/-- The place before its first use. -/
def unused : Shared τ := ⟨none⟩

/-- **Putting a session in place.** The answer says whether that was
possible: it is not when a session is in place already. -/
def put (s : Session τ) (shared : Shared τ) : Bool × Shared τ :=
  match shared.session with
  | none => (true, ⟨some s⟩)
  | some _ => (false, shared)

/-- The session in place, or else the one that is put there now. -/
def current (initial : Session τ) (shared : Shared τ) : Session τ :=
  shared.session.getD initial

/-- Carries out an operation on the shared session. -/
def answer [Transport τ] (w : World) (initial : Session τ) (c : SessionCall)
    (shared : Shared τ) : c.Answer × Shared τ :=
  let (a, s) := (shared.current initial).answer w c
  (a, ⟨some s⟩)

end Shared

end NtpQuery
