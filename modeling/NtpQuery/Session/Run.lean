import NtpQuery.Command.Routine
import NtpQuery.Command.Coercion
import NtpQuery.Session.Workspace

/-!
# Running a command

A `Run` is the state in which a command line is carried out: its keyword
is looked up, its arguments are read, and its routine is performed.
Every call of the routine is answered here.

Calls that the routine makes on its own session change nothing but the
record of the most recent failure; the run keeps a list of them.
-/

namespace NtpQuery

/-- **The state of a running command line.** -/
structure Run (τ ω : Type) where
  /-- The world around the client. -/
  world : World
  /-- The client. -/
  client : Client τ
  /-- Where the command writes and receives. -/
  workspace : ω
  /-- The most recent failure on the session. -/
  lastError : ErrorRecord
  /-- The calls that the command made on its own session, with their
  answers, oldest first. -/
  reentrant : List SessionCall.Record

namespace Run

variable {τ ω : Type} [Transport τ] [Workspace ω]

omit [Transport τ] in
/-- Writes to the workspace; the answer is how many bytes were taken. -/
def write (r : Run τ ω) (bytes : Bytes) : Nat × Run τ ω :=
  let answer := Workspace.write r.workspace bytes
  (answer.1, { r with workspace := answer.2 })

/-- Takes over what a client operation leaves behind. -/
def conclude {α : Type} (r : Run τ ω) (o : Client.Outcome τ α) :
    Except ClientError α × Run τ ω :=
  (o.result, { r with
    client := o.client
    workspace := Workspace.setScratch r.workspace o.scratch })

/-- Asks the server, receiving into the workspace. -/
def query (r : Run τ ω) (opcode : Opcode) (assid : UInt16) (data : Bytes) :
    Except ClientError Response × Run τ ω :=
  r.conclude
    (r.client.query r.world opcode assid data
      (Workspace.scratch r.workspace))

/-- Reads the list of associations anew, receiving into the
workspace. -/
def refresh (r : Run τ ω) : Except ClientError Unit × Run τ ω :=
  r.conclude (r.client.refresh r.world (Workspace.scratch r.workspace))

/-- Reads the list of associations anew for an argument that needs it. A
failure is told in the output. -/
def refreshForArgument (r : Run τ ω) : Run τ ω :=
  match r.refresh with
  | (.ok (), r) => r
  | (.error e, r) => (r.write (Text.utf8 ("***" ++ e.message ++ "\n"))).2

instance : Surroundings (Run τ ω) where
  world r := r.world
  family r := r.client.state.family
  port r := r.client.defaults.port
  listLength r := r.client.state.associations.length
  listEntry? r position :=
    r.client.state.associations[position]?.map (·.assid)
  refresh := refreshForArgument

omit [Transport τ] [Workspace ω] in
/-- Answers a call that the command makes on its own session. -/
def answerSession (r : Run τ ω) (c : SessionCall) : c.Answer × Run τ ω :=
  let answer := c.answerBusy r.lastError
  (answer, { r with
    lastError := (c.busyFailure.map ErrorRecord.ofFailure).getD r.lastError
    reentrant := r.reentrant ++ [⟨c, answer⟩] })

/-- **Answering a call of a routine.** -/
def answer (catalogue : Tables Unit) (c : CommandCall) (r : Run τ ω) :
    c.Answer × Run τ ω :=
  match c with
  | .write bytes => r.write bytes
  | .state => (r.client.state, r)
  | .setState s => ((), { r with client := { r.client with state := s } })
  | .defaults => (r.client.defaults, r)
  | .adopt d => ((), { r with client := r.client.adopt d })
  | .reset => ((), { r with client := r.client.reset })
  | .selectHost name family =>
    let answer := r.client.selectHost r.world name family
    (answer.1, { r with client := answer.2 })
  | .query opcode assid data => r.query opcode assid data
  | .refresh => r.refresh
  | .clock => (r.world.now, r)
  | .catalogue => (catalogue, r)
  | .session c => r.answerSession c

/-- Performs a routine. -/
def perform {α : Type} (catalogue : Tables Unit) (a : Routine α)
    (r : Run τ ω) : Except ClientError α × Run τ ω :=
  Program.run (answer catalogue) a.run r

@[simp] theorem perform_pure {α : Type} (t : Tables Unit) (a : α)
    (r : Run τ ω) : r.perform t (pure a : Routine α) = (.ok a, r) := rfl

@[simp] theorem perform_throw {α : Type} (t : Tables Unit)
    (e : ClientError) (r : Run τ ω) :
    r.perform t (throw e : Routine α) = (.error e, r) := rfl

/-- One routine after another: the second runs from where the first has
left off, unless the first has failed. -/
theorem perform_bind {α β : Type} (t : Tables Unit) (a : Routine α)
    (f : α → Routine β) (r : Run τ ω) :
    r.perform t (a >>= f) =
      match r.perform t a with
      | (.ok x, r) => r.perform t (f x)
      | (.error e, r) => (.error e, r) := by
  unfold perform
  rw [ExceptT.run_bind, Program.run_bind]
  rcases Program.run (answer t) a.run r with ⟨_ | _, _⟩ <;> rfl

@[simp] theorem perform_ask (t : Tables Unit) (c : CommandCall)
    (r : Run τ ω) :
    r.perform t (Routine.ask c) = (.ok (answer t c r).1, (answer t c r).2) :=
  rfl

@[simp] theorem perform_print (t : Tables Unit) (s : String)
    (r : Run τ ω) :
    r.perform t (Routine.print s) = (.ok (), (r.write (Text.utf8 s)).2) :=
  rfl

@[simp] theorem perform_state (t : Tables Unit) (r : Run τ ω) :
    r.perform t Routine.state = (.ok r.client.state, r) := rfl

@[simp] theorem perform_modify (t : Tables Unit)
    (f : Client.State → Client.State) (r : Run τ ω) :
    r.perform t (Routine.modify f) =
      (.ok (), { r with client := r.client.modify f }) := rfl

@[simp] theorem perform_query (t : Tables Unit) (opcode : Opcode)
    (assid : UInt16) (data : Bytes) (r : Run τ ω) :
    r.perform t (Routine.query opcode assid data) =
      r.query opcode assid data := rfl

@[simp] theorem perform_refresh (t : Tables Unit) (r : Run τ ω) :
    r.perform t Routine.refresh = r.refresh := rfl

/-- **Carrying out a command** whose arguments are still words. -/
def invoke (catalogue : Tables Unit) (c : Command Handler)
    (keyword : String) (raws : List String) (r : Run τ ω) :
    Except Failure Unit × Run τ ω :=
  match Coercion.invocation keyword c.slots raws r with
  | (.error e, r) => (.error e, r)
  | (.ok i, r) =>
    match r.perform catalogue (c.action i) with
    | (.error e, r) => (.error (.commandFailed c.keyword e), r)
    | (.ok (), r) => (.ok (), r)

/-- **Carrying out a command line**: a keyword and the words after
it. -/
def dispatch (tables : Tables Handler) (keyword : String)
    (raws : List String) (r : Run τ ω) : Except Failure Unit × Run τ ω :=
  match tables.resolve keyword with
  | none => (.error (.unknownCommand keyword), r)
  | some c => r.invoke (tables.map fun _ => ()) c keyword raws

end Run

end NtpQuery
