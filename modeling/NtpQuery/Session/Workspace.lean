import NtpQuery.Session.Buffer

/-!
# Workspaces

A command that runs needs a place for its output and a buffer to receive
datagrams into. In a session both are regions of the capture buffer. A
`Tape` is a workspace that keeps all output, however long: what a
session captures is the front of what a tape would hold.
-/

namespace NtpQuery

/-- **Where a command writes and receives.** -/
class Workspace (ω : Type) where
  /-- Writes bytes; the answer is how many were taken. -/
  write : ω → Bytes → Nat × ω
  /-- The receive buffer. -/
  scratch : ω → Bytes
  /-- Overwrites the receive buffer. -/
  setScratch : ω → Bytes → ω

instance : Workspace Buffer where
  write := Buffer.write
  scratch := Buffer.scratch
  setScratch := Buffer.setScratch

/-- **A workspace without a limit** on output. -/
structure Tape where
  /-- All that has been written. -/
  output : Bytes
  /-- The receive buffer. -/
  scratch : Bytes
  deriving DecidableEq

instance : Workspace Tape where
  write t bytes := (bytes.length, { t with output := t.output ++ bytes })
  scratch := Tape.scratch
  setScratch t bytes := { t with scratch := bytes }

end NtpQuery
