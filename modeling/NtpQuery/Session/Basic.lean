import NtpQuery.Command.Standard
import NtpQuery.Session.Run

/-!
# Sessions

A session runs command lines and captures their output. Opening it gives
it a capture buffer, and closing it takes the buffer away. Both reset the
client, so that no setting outlives the session that made it.

Every operation that fails is recorded; a success changes no record.
What a command has written before it fails is still handed over.
-/

namespace NtpQuery

/-- **A session** of a client over a transport. -/
structure Session (τ : Type) where
  /-- The client. -/
  client : Client τ
  /-- Whether the session has been opened. -/
  opened : Bool
  /-- The capture buffer, if there is one. -/
  buffer : Option Buffer
  /-- The most recent failure. -/
  lastError : ErrorRecord
  /-- The commands. -/
  tables : Tables Handler

namespace Session

variable {τ : Type}

/-- A closed session in its first state. -/
def new (d : Defaults) (t : τ) (tables : Tables Handler) : Session τ where
  client := Client.new d t
  opened := false
  buffer := none
  lastError := .initial
  tables := tables

/-- **Whether the session can run command lines**: it has been opened
and has a capture buffer. -/
def isReady (s : Session τ) : Bool :=
  s.opened && s.buffer.isSome

/-- The session after an operation with this result: a failure is
recorded. -/
def record {α : Type} (s : Session τ) (result : Except Failure α) :
    Session τ :=
  match result with
  | .ok _ => s
  | .error e => { s with lastError := .ofFailure e }

variable [Transport τ]

/-- **Opening the session.** If it is open already, or if there is no
memory for the buffer, nothing changes. -/
def create (w : World) (capacity : Nat) (s : Session τ) :
    Except Failure Unit × Session τ :=
  if s.opened then
    (.error .alreadyOpen, s.record (.error .alreadyOpen : Except _ Unit))
  else
    match Buffer.allocate w.openFiles capacity w.memory with
    | .error e => (.error e, s.record (.error e : Except _ Unit))
    | .ok buffer =>
      (.ok (), { s with
        client := s.client.reset
        opened := true
        buffer := some buffer })

/-- **Closing the session**, if it is open. -/
def destroy (s : Session τ) : Session τ :=
  if s.opened then
    { s with client := s.client.reset, opened := false, buffer := none }
  else s

/-- Takes on other defaults for the client and resets it to them. -/
def configure (d : Defaults) (s : Session τ) : Session τ :=
  { s with client := s.client.adopt d }

/-- **What comes of a command line.** -/
structure Execution (τ : Type) where
  /-- Whether it succeeded. -/
  result : Except Failure Unit
  /-- What it has written. -/
  output : Bytes
  /-- The calls that it made on its own session, with their answers. -/
  reentrant : List SessionCall.Record
  /-- The session afterwards. -/
  session : Session τ

/-- Carries out a command line, without recording how it ends. The
buffer is cleared before the keyword is looked up. -/
def run (w : World) (argv : List String) (s : Session τ) : Execution τ :=
  if !s.isReady then ⟨.error .notOpen, [], [], s⟩
  else match argv, s.buffer with
  | [], _ => ⟨.error .missingArguments, [], [], s⟩
  | _ :: _, none => ⟨.error .notOpen, [], [], s⟩
  | keyword :: raws, some buffer =>
    let (result, r) := Run.dispatch s.tables keyword raws
      { world := w
        client := s.client
        workspace := buffer.clear
        lastError := s.lastError
        reentrant := [] }
    ⟨result, r.workspace.contents, r.reentrant, { s with
      client := r.client
      buffer := some r.workspace
      lastError := r.lastError }⟩

/-- The bytes with a zero in place of the last. -/
def terminate (out : Bytes) : Bytes :=
  if out.isEmpty then out else out.dropLast ++ [0]

/-- **What a caller gets in a buffer of its own**: the front of the
output, then zeros, at least one if there is room for it. -/
def fill (size : Nat) (output : Bytes) : Bytes :=
  terminate (Bytes.overlay (Bytes.zeros size) output)

/-- **Executing a command line** with a buffer of the caller's for its
output. -/
def execute (w : World) (argv : List String) (out : Bytes)
    (s : Session τ) : Execution τ :=
  let e := run w argv s
  { e with
    output := fill out.length e.output
    session := e.session.record e.result }

/-- **Carrying out an operation.** -/
def answer (w : World) (c : SessionCall) (s : Session τ) :
    c.Answer × Session τ :=
  match c with
  | .isReady => (s.isReady, s)
  | .lastError => (s.lastError, s)
  | .create capacity => s.create w capacity
  | .destroy => ((), s.destroy)
  | .configure d => (.ok (), s.configure d)
  | .execute argv out =>
    let e := s.execute w argv out
    ((e.result, e.output), e.session)

/-- Runs a program that uses the session. -/
def runProgram {α : Type} (w : World) (p : SessionProgram α)
    (s : Session τ) : α × Session τ :=
  Program.run (answer w) p s

end Session

end NtpQuery
