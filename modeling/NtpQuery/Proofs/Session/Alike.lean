import NtpQuery.Proofs.Session.Output

/-!
# Sessions that cannot be told apart

Two sessions are alike (`Session.Alike`) if their clients are alike, they
have the same tables, and both are closed or both receive into buffers of
the same length. What their capture buffers hold may differ, and so may
the capacities.

A command line then goes the same way in both (`Session.run_alike`): it
ends alike, makes the same calls on its session, and what the two capture
are cuts of one stream. The most recent failures of the two need not be
the same; as with runs, the exception is a command that asks for one
before anything has failed.
-/

namespace NtpQuery

namespace Session

/-- **Whether something has failed** in a command line: the command line
itself, or a call of the command on its session. -/
def Execution.fails {τ : Type} (e : Execution τ) : Bool :=
  !e.result.isOk || SessionCall.anyFails e.reentrant

section

variable {τ τ' : Type}

/-- **Sessions that are alike.** The most recent failure is the same if it
is `known` to be. -/
structure Alike (R : τ → τ' → Prop) (known : Bool) (s : Session τ)
    (s' : Session τ') : Prop where
  /-- The first session is coherent. -/
  coherent : s.Coherent
  /-- So is the second. -/
  coherent' : s'.Coherent
  /-- The clients are alike. -/
  client : s.client.Alike R s'.client
  /-- The tables are the same. -/
  tables : s.tables = s'.tables
  /-- Both have a receive buffer of the same length, or neither has
  one. -/
  scratch : s.buffer.map (·.scratch.length)
    = s'.buffer.map (·.scratch.length)
  /-- The most recent failure is the same. -/
  lastError : known = true → s.lastError = s'.lastError

/-- **Command lines that are alike**: of one stream of output, the first
session has handed over a `cut` and the second another. -/
structure Execution.Alike (R : τ → τ' → Prop) (known : Bool)
    (cut cut' : Bytes → Bytes) (e : Execution τ) (e' : Execution τ') :
    Prop where
  /-- The result is the same. -/
  result : e.result = e'.result
  /-- The output is of one stream. -/
  output : ∃ stream, e.output = cut stream ∧ e'.output = cut' stream
  /-- The session was called in the same way. -/
  reentrant : e.reentrant = e'.reentrant
  /-- The sessions are alike. -/
  session : e.session.Alike R known e'.session

namespace Alike

variable {R : τ → τ' → Prop} {known : Bool} {s : Session τ}
variable {s' : Session τ'}

/-- Sessions that are alike are open at the same time. -/
theorem opened (h : s.Alike R known s') : s.opened = s'.opened := by
  have hsome := congrArg Option.isSome h.scratch
  rwa [Option.isSome_map, Option.isSome_map, ← h.coherent.opened,
    ← h.coherent'.opened] at hsome

/-- They are ready at the same time. -/
theorem isReady (h : s.Alike R known s') : s.isReady = s'.isReady := by
  rw [h.coherent.isReady_eq, h.coherent'.isReady_eq, h.opened]

/-- **Recording how an operation ends** keeps them alike; a failure is
then known. -/
theorem record {α : Type} (h : s.Alike R known s')
    (result : Except Failure α) :
    (s.record result).Alike R (known || !result.isOk)
      (s'.record result) := by
  cases result with
  | ok a =>
    refine ⟨h.coherent, h.coherent', h.client, h.tables, h.scratch, ?_⟩
    intro hk
    exact h.lastError (by simpa [Except.isOk, Except.toBool] using hk)
  | error e =>
    exact ⟨h.coherent.congr rfl rfl, h.coherent'.congr rfl rfl, h.client,
      h.tables, h.scratch, fun _ => rfl⟩

end Alike

end

variable {τ τ' : Type} [Transport τ] [Transport τ'] {R : τ → τ' → Prop}
variable {known : Bool} {s : Session τ} {s' : Session τ'}

/-- **A command line goes the same way in both**, unless the command asks
for a failure that need not be known. -/
theorem run_alike (hR : Transport.Alike R) (h : s.Alike R known s')
    (w : World) (argv : List String) :
    (known = false
        ∧ SessionCall.asksFirst (s.run w argv).reentrant = true)
      ∨ (s.run w argv).Alike R
        (known || SessionCall.anyFails (s.run w argv).reentrant)
        (·.take s.capacity) (·.take s'.capacity) (s'.run w argv) := by
  rcases s.run_cases w argv with
    ⟨e, hnone⟩ | ⟨keyword, raws, b, rfl, -, hbuffer⟩
  · -- where nothing is run, nothing is captured
    rw [hnone s rfl, hnone s' h.isReady.symm,
      show SessionCall.anyFails [] = false from rfl, Bool.or_false]
    exact Or.inr ⟨rfl, ⟨[], List.take_nil.symm, List.take_nil.symm⟩, rfl, h⟩
  · obtain ⟨b', hbuffer', hscratch⟩ : ∃ b', s'.buffer = some b'
        ∧ b.scratch.length = b'.scratch.length := by
      have hmap := h.scratch
      rw [hbuffer] at hmap
      obtain ⟨b', hb', heq⟩ := Option.map_eq_some_iff.mp hmap.symm
      exact ⟨b', hb', heq.symm⟩
    have hsame := run_onTape_of_known h.coherent' hbuffer' hscratch w
      keyword raws
    refine (run_onTape known hR h.coherent hbuffer h.client h.tables
      h.lastError rfl w keyword raws).imp id fun hfirst => ?_
    obtain ⟨c, hc, -, hlen⟩ := hfirst.buffer
    obtain ⟨c', hc', -, hlen'⟩ := hsame.buffer
    have houtput : ∃ stream : Bytes,
        (s.run w (keyword :: raws)).output = stream.take s.capacity
          ∧ (s'.run w (keyword :: raws)).output
            = stream.take s'.capacity := by
      unfold capacity
      rw [hbuffer, hbuffer']
      exact ⟨_, hfirst.output, hsame.output⟩
    refine ⟨hfirst.result.trans hsame.result.symm, houtput,
      hfirst.reentrant.trans hsame.reentrant.symm, h.coherent.run w _,
      h.coherent'.run w _, ?_, ?_, ?_, fun hk => ?_⟩
    · rw [hsame.client.eq]
      exact hfirst.client
    · rw [(run_frame s w _).2, (run_frame s' w _).2, h.tables]
    · rw [hc, hc']
      exact congrArg some (hlen.trans hlen'.symm)
    · exact (hfirst.lastError hk).trans (hsame.lastError rfl).symm

/-- **Executing a command line** does the same in both, whatever buffers
the callers lend. -/
theorem execute_alike (hR : Transport.Alike R) (h : s.Alike R known s')
    (w : World) (argv : List String) (out out' : Bytes) :
    (known = false
        ∧ SessionCall.asksFirst (s.execute w argv out).reentrant = true)
      ∨ (s.execute w argv out).Alike R
        (known || (s.execute w argv out).fails)
        (fun stream => fill out.length (stream.take s.capacity))
        (fun stream => fill out'.length (stream.take s'.capacity))
        (s'.execute w argv out') := by
  refine (run_alike hR h w argv).imp id fun hrun => ?_
  obtain ⟨stream, houtput, houtput'⟩ := hrun.output
  refine ⟨hrun.result, ⟨stream, congrArg (fill _) houtput,
    congrArg (fill _) houtput'⟩, hrun.reentrant, ?_⟩
  have hend := hrun.session.record (s.run w argv).result
  rw [Bool.or_assoc, Bool.or_comm (SessionCall.anyFails _)] at hend
  show ((s.run w argv).session.record (s.run w argv).result).Alike R _
    ((s'.run w argv).session.record (s'.run w argv).result)
  rw [← hrun.result]
  exact hend

/-- Executing a command line leaves the session open or closed, with the
capacity and the tables that it has. -/
theorem Coherent.execute_frame (h : s.Coherent) (w : World)
    (argv : List String) (out : Bytes) :
    (s.execute w argv out).session.opened = s.opened
      ∧ (s.execute w argv out).session.buffer.map (·.capacity)
        = s.buffer.map (·.capacity)
      ∧ (s.execute w argv out).session.tables = s.tables := by
  obtain ⟨hopened, htables⟩ := run_frame s w argv
  obtain ⟨-, hopened', hbuffer', htables'⟩ :=
    record_frame (s.run w argv).session (s.run w argv).result
  refine ⟨hopened'.trans hopened, ?_, htables'.trans htables⟩
  exact (congrArg _ hbuffer').trans (h.run_buffer w argv).1

/-- Nor does it change the length of the receive buffer. -/
theorem Coherent.execute_scratch (h : s.Coherent) (w : World)
    (argv : List String) (out : Bytes) :
    (s.execute w argv out).session.buffer.map (·.scratch.length)
      = s.buffer.map (·.scratch.length) := by
  obtain ⟨-, -, hbuffer, -⟩ :=
    record_frame (s.run w argv).session (s.run w argv).result
  exact (congrArg _ hbuffer).trans (h.run_buffer w argv).2.1

omit [Transport τ] in
/-- The capacity is that of the capture buffer. -/
theorem capacity_eq (s : Session τ) :
    s.capacity = (s.buffer.map (·.capacity)).getD 0 := by
  unfold capacity
  cases s.buffer <;> rfl

end Session

end NtpQuery
