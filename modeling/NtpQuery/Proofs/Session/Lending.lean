import NtpQuery.Proofs.Session.Output

/-!
# What a session lends to a command

While a session runs a command, its capture buffer and its client are in
the hands of the command. The command may turn to the session meanwhile. The
operation that it asks for is the same as at any other time: it looks at the
session step by step, in an order of its own, and it fails as busy once it
needs a part that is lent.

A `Guarded` session is one in which each of the two parts may be lent, and every
operation is written for it once. If nothing is lent, this is the operation
of the session (`Guarded.answer_idle`). If both parts are lent, it is what a
running command gets from its session (`Guarded.answer_running`), so that the
answers of a busy session are not a matter of their own: they follow from
the order in which the operations look at things.
-/

namespace NtpQuery

/-- **The failure that an operation is known to have had** from what it
returned, if there was one. Closing returns nothing. -/
def SessionCall.told : (c : SessionCall) → c.Answer → Option Failure
  | isReady, _ | lastError, _ | destroy, _ => none
  | create _, result => Failure.of? result
  | configure _, result => Failure.of? result
  | execute _ _, answer => Failure.of? answer.1

/-- **A part of a session**, which may be lent to the command that is
running. -/
structure Lendable (α : Type) where
  /-- The part as it is now. -/
  value : α
  /-- Whether it is lent. -/
  lent : Bool

namespace Lendable

variable {α : Type}

/-- Takes hold of the part, which must not be lent. -/
def hold (p : Lendable α) : Except Failure α :=
  if p.lent then .error .busy else .ok p.value

/-- Puts another value in its place. -/
def put (p : Lendable α) (a : α) : Lendable α :=
  { p with value := a }

end Lendable

/-- **A session, parts of which may be lent.** -/
structure Guarded (τ : Type) where
  /-- Whether the session has been opened. -/
  opened : Bool
  /-- The most recent failure. -/
  lastError : ErrorRecord
  /-- The capture buffer, if there is one. -/
  buffer : Lendable (Option Buffer)
  /-- The client. -/
  client : Lendable (Client τ)
  /-- The commands. -/
  tables : Tables Handler

namespace Guarded

variable {τ : Type}

/-- A session that runs no command. -/
def idle (s : Session τ) : Guarded τ where
  opened := s.opened
  lastError := s.lastError
  buffer := ⟨s.buffer, false⟩
  client := ⟨s.client, false⟩
  tables := s.tables

/-- **A session at some point of the run of a command**, which has the
capture buffer and the client in its hands. -/
def running (tables : Tables Handler) (r : Run τ Buffer) : Guarded τ where
  opened := true
  lastError := r.lastError
  buffer := ⟨some r.workspace, true⟩
  client := ⟨r.client, true⟩
  tables := tables

/-- The session with everything back in its place. -/
def returned (s : Guarded τ) : Guarded τ :=
  { s with
    buffer := ⟨s.buffer.value, false⟩
    client := ⟨s.client.value, false⟩ }

/-- Whether the session can run command lines. A capture buffer that is
lent is there. -/
def isReady (s : Guarded τ) : Bool :=
  s.opened && (s.buffer.lent || s.buffer.value.isSome)

/-- The session after an operation with this result. -/
def record (s : Guarded τ) (result : Except Failure Unit) : Guarded τ :=
  match result with
  | .ok () => s
  | .error e => { s with lastError := .ofFailure e }

/-- How an operation ends that leaves the session alone if it fails. -/
def settle (s : Guarded τ) (next : Except Failure (Guarded τ)) :
    Except Failure Unit × Guarded τ :=
  match next with
  | .ok s => (.ok (), s)
  | .error e => (.error e, s.record (.error e))

variable [Transport τ]

/-- **Opening.** Whether the session is open already is looked at before
anything is taken hold of. -/
def create (w : World) (capacity : Nat) (s : Guarded τ) :
    Except Failure (Guarded τ) :=
  if s.opened then .error .alreadyOpen
  else do
    let _ ← s.buffer.hold
    let client ← s.client.hold
    let buffer ← Buffer.allocate w.openFiles capacity w.memory
    return { s with
      opened := true
      buffer := s.buffer.put (some buffer)
      client := s.client.put client.reset }

/-- **Closing**, if the session is open. -/
def destroy (s : Guarded τ) : Except Failure (Guarded τ) :=
  if s.opened then do
    let _ ← s.buffer.hold
    let client ← s.client.hold
    return { s with
      opened := false
      buffer := s.buffer.put none
      client := s.client.put client.reset }
  else .ok s

/-- **Other defaults** for the client. -/
def configure (d : Defaults) (s : Guarded τ) : Except Failure (Guarded τ) := do
  let client ← s.client.hold
  return { s with client := s.client.put (client.adopt d) }

/-- **A command line.** The session must be ready and the line must not be
empty; then the buffer is taken hold of, and the client only once the
keyword has been looked up. With both in hand the command runs, and then
they are returned. The answer is the result, what is handed over, and the
session. -/
def run (w : World) (argv : List String) (s : Guarded τ) :
    Except Failure Unit × Bytes × Guarded τ :=
  if !s.isReady then (.error .notOpen, [], s)
  else match argv with
  | [] => (.error .missingArguments, [], s)
  | keyword :: raws =>
    match s.buffer.hold with
    | .error e => (.error e, [], s)
    | .ok none => (.error .notOpen, [], s)
    | .ok (some buffer) =>
      let s := { s with buffer := s.buffer.put (some buffer.clear) }
      match s.tables.resolve keyword with
      | none => (.error (.unknownCommand keyword), [], s)
      | some c =>
        match s.client.hold with
        | .error e => (.error e, [], s)
        | .ok client =>
          let (result, r) := Run.invoke (s.tables.map fun _ => ()) c keyword
            raws
            { world := w
              client := client
              workspace := buffer.clear
              lastError := s.lastError
              reentrant := [] }
          (result, r.workspace.contents, (running s.tables r).returned)

/-- **Executing a command line** with a buffer of the caller's for its
output. -/
def execute (w : World) (argv : List String) (out : Bytes)
    (s : Guarded τ) : (Except Failure Unit × Bytes) × Guarded τ :=
  let (result, output, s) := s.run w argv
  ((result, Session.fill out.length output), s.record result)

/-- **Carrying out an operation**, whatever is lent. -/
def answer (w : World) (c : SessionCall) (s : Guarded τ) :
    c.Answer × Guarded τ :=
  match c with
  | .isReady => (s.isReady, s)
  | .lastError => (s.lastError, s)
  | .create capacity => s.settle (s.create w capacity)
  | .destroy => ((), (s.settle s.destroy).2)
  | .configure d => s.settle (s.configure d)
  | .execute argv out => s.execute w argv out

/-- **How an operation fails**, if it does. Closing has no result, and yet
it may be refused. -/
def failure? (w : World) (c : SessionCall) (s : Guarded τ) : Option Failure :=
  match c with
  | .isReady | .lastError => none
  | .create capacity => Failure.of? (s.create w capacity)
  | .destroy => Failure.of? s.destroy
  | .configure d => Failure.of? (s.configure d)
  | .execute argv _ => Failure.of? (s.run w argv).1

/-- Whoever asks for an operation is told how it failed, unless it is to
close the session. -/
theorem told_answer (w : World) {c : SessionCall} (hc : c ≠ .destroy)
    (s : Guarded τ) : c.told (s.answer w c).1 = s.failure? w c := by
  have hsettle : ∀ next : Except Failure (Guarded τ),
      Failure.of? (s.settle next).1 = Failure.of? next := by
    intro next
    cases next <;> rfl
  cases c with
  | destroy => exact absurd rfl hc
  | create capacity => exact hsettle _
  | configure d => exact hsettle _
  | _ => rfl

/-- **An operation that fails** leaves its failure on record, whatever is
lent. -/
theorem lastError_of_failure {w : World} {c : SessionCall} {s : Guarded τ}
    {f : Failure} (h : s.failure? w c = some f) :
    (s.answer w c).2.lastError = .ofFailure f := by
  have hsettle : ∀ next : Except Failure (Guarded τ),
      Failure.of? next = some f →
      (s.settle next).2.lastError = .ofFailure f := by
    intro next hnext
    rw [Failure.of?_eq_some_iff.mp hnext]
    rfl
  cases c with
  | isReady => exact nomatch h
  | lastError => exact nomatch h
  | create capacity => exact hsettle _ h
  | destroy => exact hsettle _ h
  | configure d => exact hsettle _ h
  | execute argv out =>
    have hresult : (s.run w argv).1 = .error f :=
      Failure.of?_eq_some_iff.mp h
    show ((s.run w argv).2.2.record (s.run w argv).1).lastError = _
    rw [hresult]
    rfl

/-! ## Nothing is lent -/

omit [Transport τ] in
/-- It is known as a whole. -/
theorem idle_injective :
    Function.Injective (idle : Session τ → Guarded τ) := by
  rintro ⟨client, opened, buffer, lastError, tables⟩ s' h
  obtain ⟨rfl, rfl, hbuffer, hclient, rfl⟩ := Guarded.mk.inj h
  obtain rfl := (Lendable.mk.inj hbuffer).1
  obtain rfl := (Lendable.mk.inj hclient).1
  rfl

/-- A command line in a session that runs no other. -/
theorem run_idle (w : World) (argv : List String) (s : Session τ) :
    (idle s).run w argv = ((s.run w argv).result, (s.run w argv).output,
      idle (s.run w argv).session) := by
  have hready : (idle s).isReady = s.isReady := by
    unfold isReady Session.isReady idle
    rw [Bool.false_or]
  cases hopen : s.isReady with
  | false =>
    rw [Session.run_of_not_ready hopen]
    unfold run
    rw [hready, hopen]
    rfl
  | true =>
    obtain ⟨hopened, buffer, hbuffer⟩ := Session.exists_buffer_of_ready hopen
    cases argv with
    | nil =>
      rw [Session.run_nil hopen]
      unfold run
      rw [hready, hopen]
      rfl
    | cons keyword raws =>
      have hhold : (idle s).buffer.hold = .ok (some buffer) :=
        congrArg Except.ok hbuffer
      rw [Session.run_cons hopened hbuffer]
      unfold run Run.dispatch
      rw [hready, hopen, hhold]
      dsimp only [idle, running, returned]
      rw [hopened]
      cases s.tables.resolve keyword <;> rfl

/-- Opening such a session. -/
theorem create_idle (w : World) (capacity : Nat) (s : Session τ) :
    (idle s).settle ((idle s).create w capacity)
      = ((s.create w capacity).1, idle (s.create w capacity).2) := by
  obtain ⟨client, opened, buffer, lastError, tables⟩ := s
  unfold create Session.create
  cases opened with
  | true => rfl
  | false =>
    dsimp only [idle]
    cases Buffer.allocate w.openFiles capacity w.memory <;> rfl

/-- Closing it. -/
theorem destroy_idle (s : Session τ) :
    ((idle s).settle (idle s).destroy).2 = idle s.destroy := by
  obtain ⟨client, opened, buffer, lastError, tables⟩ := s
  cases opened <;> rfl

/-- Executing a command line in it. -/
theorem execute_idle (w : World) (argv : List String) (out : Bytes)
    (s : Session τ) :
    (idle s).execute w argv out
      = (((s.execute w argv out).result, (s.execute w argv out).output),
        idle (s.execute w argv out).session) := by
  unfold execute
  rw [run_idle]
  dsimp only [Session.execute]
  cases (s.run w argv).result <;> rfl

/-- **An operation on a session that runs no command** is that of the
session. -/
theorem answer_idle (w : World) (c : SessionCall) (s : Session τ) :
    (idle s).answer w c = ((s.answer w c).1, idle (s.answer w c).2) := by
  cases c with
  | isReady =>
    show (s.opened && (false || s.buffer.isSome), idle s) = (s.isReady, _)
    rw [Bool.false_or]
    rfl
  | create capacity => exact create_idle w capacity s
  | destroy => exact congrArg (Prod.mk ()) (destroy_idle s)
  | execute argv out => exact execute_idle w argv out s
  | _ => rfl

/-! ## A command is running -/

variable {tables : Tables Handler} {r : Run τ Buffer}

/-- **An operation on a session that is running a command** is answered as
the command sees it, and leaves the command where it is. -/
theorem answer_running (w : World) (c : SessionCall) :
    (running tables r).answer w c
      = ((r.answerSession c).1, running tables (r.answerSession c).2) := by
  have hzeros : ∀ n, Session.fill n [] = Bytes.zeros n := fun n => by
    rw [Session.fill_eq, List.take_nil, List.nil_append, List.length_nil,
      Nat.zero_min, Nat.sub_zero]
  cases c with
  | execute argv out =>
    -- the line is refused before anything is handed over
    have houtput : ((running tables r).run w argv).2.1 = [] := by
      cases argv <;> rfl
    show (running tables r).execute w argv out = _
    unfold execute
    dsimp only
    rw [houtput, hzeros]
    cases argv <;> rfl
  | _ => rfl

/-- It fails as operations fail on a busy session. -/
theorem failure?_running (w : World) (c : SessionCall) :
    (running tables r).failure? w c = c.busyFailure := by
  cases c with
  | execute argv out => cases argv <;> rfl
  | _ => rfl

end Guarded

end NtpQuery
