import NtpQuery.Proofs.Session.OnTape
import NtpQuery.Session.Basic

/-!
# Sessions that can be reached

A session starts closed, and whoever uses it can only carry out its
operations; between two of them the transport may change by itself, as
datagrams arrive. What holds of every session that can be reached in this
way is proved along the operations. Here it is that the session counts as
opened exactly while it holds a capture buffer, and that the buffer is
sound (`Session.Reached.coherent`).
-/

namespace NtpQuery

namespace Session

variable {τ : Type} [Transport τ]

/-- **A session that can be reached.** -/
inductive Reached : Session τ → Prop where
  /-- A session starts closed. -/
  | new (d : Defaults) (t : τ) (tables : Tables Handler) :
    Reached (new d t tables)
  /-- An operation is carried out, in whatever world. -/
  | answer {s : Session τ} (w : World) (c : SessionCall) :
    Reached s → Reached (s.answer w c).2
  /-- The transport changes by itself. -/
  | transport {s : Session τ} (t : τ) :
    Reached s → Reached { s with client := { s.client with transport := t } }

/-- The run of a command line before anything has happened. -/
def start {ω : Type} (w : World) (s : Session τ) (workspace : ω) :
    Run τ ω where
  world := w
  client := s.client
  workspace := workspace
  lastError := s.lastError
  reentrant := []

omit [Transport τ] in
/-- Runs of two sessions are alike before anything has happened, if the
clients are alike and the workspaces are related. -/
theorem start_alike {τ' ω ω' : Type} {R : τ → τ' → Prop}
    {W : ω → ω' → Prop} {known : Bool} {s : Session τ} {s' : Session τ'}
    (hclient : s.client.Alike R s'.client)
    (herror : known = true → s.lastError = s'.lastError) {w w' : World}
    (hw : w.Alike w') {v : ω} {v' : ω'} (hv : W v v') :
    Run.Alike R W known (s.start w v) (s'.start w' v') := by
  refine ⟨hw, hclient, hv, rfl, fun hk => herror ?_⟩
  rwa [show SessionCall.anyFails (s.start w v).reentrant = false from rfl,
    Bool.or_false] at hk

section Run

variable {s : Session τ} {w : World} {argv raws : List String}
variable {keyword : String} {buffer : Buffer}

omit [Transport τ] in
/-- A session that can run command lines is open and has a buffer. -/
theorem exists_buffer_of_ready (h : s.isReady = true) :
    s.opened = true ∧ ∃ b, s.buffer = some b := by
  obtain ⟨hopened, hsome⟩ := Bool.and_eq_true_iff.mp h
  exact ⟨hopened, Option.isSome_iff_exists.mp hsome⟩

/-- A session that is not open runs nothing. -/
theorem run_of_not_ready (h : s.isReady = false) :
    s.run w argv = ⟨.error .notOpen, [], [], s⟩ := by
  unfold run
  rw [h]
  rfl

/-- An empty command line runs nothing. -/
theorem run_nil (h : s.isReady = true) :
    s.run w [] = ⟨.error .missingArguments, [], [], s⟩ := by
  unfold run
  rw [h]
  rfl

/-- **A command line in an open session** is carried out in the cleared
capture buffer. -/
theorem run_cons (hopened : s.opened = true)
    (hbuffer : s.buffer = some buffer) :
    s.run w (keyword :: raws) =
      let answer := Run.dispatch s.tables keyword raws
        (s.start w buffer.clear)
      ⟨answer.1, answer.2.workspace.contents, answer.2.reentrant, { s with
        client := answer.2.client
        buffer := some answer.2.workspace
        lastError := answer.2.lastError }⟩ := by
  unfold run isReady
  rw [hopened, hbuffer]
  rfl

omit [Transport τ] in
/-- **The two ways of a command line.** Nothing is carried out, for the same
reason in every session that is as ready as this one, or there are words to
carry out and a capture buffer to do it in. -/
theorem run_cases (s : Session τ) (w : World) (argv : List String) :
    (∃ e, ∀ {τ' : Type} [Transport τ'] (s' : Session τ'),
        s'.isReady = s.isReady → s'.run w argv = ⟨.error e, [], [], s'⟩)
      ∨ ∃ keyword raws buffer, argv = keyword :: raws ∧ s.opened = true
        ∧ s.buffer = some buffer := by
  cases hready : s.isReady with
  | false => exact Or.inl ⟨.notOpen, fun _ h => run_of_not_ready h⟩
  | true =>
    cases argv with
    | nil => exact Or.inl ⟨.missingArguments, fun _ h => run_nil h⟩
    | cons keyword raws =>
      obtain ⟨hopened, buffer, hbuffer⟩ := exists_buffer_of_ready hready
      exact Or.inr ⟨keyword, raws, buffer, rfl, hopened, hbuffer⟩

/-- A command line neither opens nor closes its session, and leaves the
tables alone. -/
theorem run_frame (s : Session τ) (w : World) (argv : List String) :
    (s.run w argv).session.opened = s.opened
      ∧ (s.run w argv).session.tables = s.tables := by
  unfold run
  split
  · exact ⟨rfl, rfl⟩
  · split <;> exact ⟨rfl, rfl⟩

omit [Transport τ] in
/-- Recording how an operation ends leaves the client, the buffer and the
tables alone. -/
theorem record_frame {α : Type} (s : Session τ)
    (result : Except Failure α) :
    (s.record result).client = s.client
      ∧ (s.record result).opened = s.opened
      ∧ (s.record result).buffer = s.buffer
      ∧ (s.record result).tables = s.tables := by
  cases result <;> exact ⟨rfl, rfl, rfl, rfl⟩

end Run

/-- An open session cannot be opened, whatever the size. -/
theorem create_of_opened {s : Session τ} (h : s.opened = true) (w : World)
    (capacity : Nat) : s.create w capacity = (.error .alreadyOpen,
      { s with lastError := .ofFailure .alreadyOpen }) := by
  unfold create
  rw [if_pos h]
  rfl

/-- **The three ways of opening a session.** It may be open already, there
may be no memory for the buffer, and else it is opened. -/
theorem create_cases (s : Session τ) (w : World) (capacity : Nat) :
    (s.opened = true ∧ s.create w capacity = (.error .alreadyOpen,
        { s with lastError := .ofFailure .alreadyOpen }))
      ∨ (s.opened = false ∧ ∃ e,
        Buffer.allocate w.openFiles capacity w.memory = .error e
          ∧ s.create w capacity
            = (.error e, { s with lastError := .ofFailure e }))
      ∨ (s.opened = false ∧ ∃ b,
        Buffer.allocate w.openFiles capacity w.memory = .ok b
          ∧ s.create w capacity = (.ok (), { s with
            client := s.client.reset
            opened := true
            buffer := some b })) := by
  by_cases hopened : s.opened = true
  · exact Or.inl ⟨hopened, create_of_opened hopened w capacity⟩
  · unfold create
    rw [if_neg hopened]
    refine Or.inr ?_
    have hclosed := Bool.eq_false_iff.mpr hopened
    cases hbuffer : Buffer.allocate w.openFiles capacity w.memory with
    | error e => exact Or.inl ⟨hclosed, e, rfl, rfl⟩
    | ok b => exact Or.inr ⟨hclosed, b, rfl, rfl⟩

/-- Opening that succeeds gives the session a buffer. -/
theorem create_of_isOk {s : Session τ} {w : World} {capacity : Nat}
    (h : (s.create w capacity).1.isOk = true) :
    ∃ b, Buffer.allocate w.openFiles capacity w.memory = .ok b
      ∧ s.create w capacity = (.ok (), { s with
        client := s.client.reset
        opened := true
        buffer := some b }) := by
  rcases s.create_cases w capacity with
    ⟨-, heq⟩ | ⟨-, e, -, heq⟩ | ⟨-, b, hb, heq⟩
  · rw [heq] at h
    exact absurd h Bool.false_ne_true
  · rw [heq] at h
    exact absurd h Bool.false_ne_true
  · exact ⟨b, hb, heq⟩

/-- An open session is closed. -/
theorem destroy_of_opened {s : Session τ} (h : s.opened = true) :
    s.destroy = { s with
      client := s.client.reset
      opened := false
      buffer := none } := by
  unfold destroy
  rw [if_pos h]

/-- A closed session stays as it is. -/
theorem destroy_of_closed {s : Session τ} (h : s.opened = false) :
    s.destroy = s := by
  unfold destroy
  rw [h, if_neg Bool.false_ne_true]

/-- Neither runs command lines any more. -/
theorem isReady_destroy (s : Session τ) : s.destroy.isReady = false := by
  cases hopened : s.opened with
  | true =>
    rw [destroy_of_opened hopened]
    rfl
  | false =>
    rw [destroy_of_closed hopened, isReady, hopened, Bool.false_and]

omit [Transport τ] in
/-- **A coherent session.** -/
structure Coherent (s : Session τ) : Prop where
  /-- It counts as opened exactly while it holds a capture buffer. -/
  opened : s.opened = s.buffer.isSome
  /-- The capture buffer is sound. -/
  sound : ∀ b ∈ s.buffer, b.Sound

namespace Coherent

variable {s : Session τ}

omit [Transport τ] in
/-- A coherent session that counts as opened can run command lines. -/
theorem isReady_eq (h : s.Coherent) : s.isReady = s.opened := by
  unfold isReady
  rw [← h.opened, Bool.and_self]

omit [Transport τ] in
/-- A coherent session is ready with a sound buffer, or it is closed and
has none. -/
theorem cases (h : s.Coherent) :
    (∃ b, s.opened = true ∧ s.buffer = some b ∧ b.Sound)
      ∨ (s.opened = false ∧ s.buffer = none) := by
  have hopened := h.opened
  cases hbuffer : s.buffer with
  | some b =>
    rw [hbuffer] at hopened
    exact Or.inl ⟨b, hopened, rfl, h.sound b hbuffer⟩
  | none =>
    rw [hbuffer] at hopened
    exact Or.inr ⟨hopened, rfl⟩

omit [Transport τ] in
/-- Only the mark and the buffer matter. -/
theorem congr {s' : Session τ} (h : s.Coherent)
    (hopened : s'.opened = s.opened) (hbuffer : s'.buffer = s.buffer) :
    s'.Coherent :=
  ⟨by rw [hopened, hbuffer, h.opened], by rw [hbuffer]; exact h.sound⟩

/-- **Opening** gives a sound buffer, or changes nothing. -/
theorem create (h : s.Coherent) (w : World) (capacity : Nat) :
    (s.create w capacity).2.Coherent := by
  rcases s.create_cases w capacity with
    ⟨-, heq⟩ | ⟨-, e, -, heq⟩ | ⟨-, b, hb, heq⟩
  · rw [heq]
    exact h.congr rfl rfl
  · rw [heq]
    exact h.congr rfl rfl
  · rw [heq]
    refine ⟨rfl, fun c hc => ?_⟩
    obtain rfl := Option.some.inj hc
    exact Buffer.sound_of_allocate hb

/-- **Closing** takes the buffer away. -/
theorem destroy (h : s.Coherent) : s.destroy.Coherent := by
  cases hopened : s.opened with
  | true =>
    rw [destroy_of_opened hopened]
    exact ⟨rfl, fun b hb => absurd hb (by simp)⟩
  | false => rwa [destroy_of_closed hopened]

/-- **What becomes of the capture buffer** in a command line: there is one
afterwards if there was one before, of the same capacity, with a receive
buffer of the same length, and sound. -/
theorem run_buffer (h : s.Coherent) (w : World) (argv : List String) :
    (s.run w argv).session.buffer.map (·.capacity)
        = s.buffer.map (·.capacity)
      ∧ (s.run w argv).session.buffer.map (·.scratch.length)
        = s.buffer.map (·.scratch.length)
      ∧ ∀ b ∈ (s.run w argv).session.buffer, b.Sound := by
  rcases h.cases with ⟨b, hopened, hbuffer, hsound⟩ | ⟨hopened, -⟩
  · cases argv with
    | nil =>
      rw [run_nil (by rw [h.isReady_eq, hopened])]
      exact ⟨rfl, rfl, h.sound⟩
    | cons keyword raws =>
      have hlength : b.clear.scratch.length = b.scratch.length := by
        rw [Buffer.Sound.scratch_clear]
      obtain ⟨-, hend⟩ := Run.dispatch_alike_of_known
        (.of_alike Transport.alike_eq
          (Buffer.alike_onTape_of_length b.capacity b.scratch.length))
        (start_alike (.refl s.client) (fun _ => rfl) (.refl w)
          ⟨hsound.onTape_clear, hlength⟩)
        s.tables keyword raws
      obtain ⟨htape, hlength⟩ := hend.workspace
      rw [run_cons hopened hbuffer, hbuffer]
      refine ⟨congrArg some htape.capacity, congrArg some hlength,
        fun c hc => ?_⟩
      obtain rfl := Option.some.inj hc
      exact htape.sound
  · rw [run_of_not_ready (by rw [h.isReady_eq, hopened])]
    exact ⟨rfl, rfl, h.sound⟩

/-- **A command line** leaves the session coherent. -/
theorem run (h : s.Coherent) (w : World) (argv : List String) :
    (s.run w argv).session.Coherent := by
  obtain ⟨hcapacity, -, hsound⟩ := h.run_buffer w argv
  have hsome := congrArg Option.isSome hcapacity
  rw [Option.isSome_map, Option.isSome_map, ← h.opened] at hsome
  exact ⟨(run_frame s w argv).1.trans hsome.symm, hsound⟩

/-- So does executing one. -/
theorem execute (h : s.Coherent) (w : World) (argv : List String)
    (out : Bytes) : (s.execute w argv out).session.Coherent := by
  obtain ⟨-, hopened, hbuffer, -⟩ := record_frame
    (s.run w argv).session (s.run w argv).result
  exact (h.run w argv).congr hopened hbuffer

/-- **Every operation** leaves the session coherent. -/
theorem answer (h : s.Coherent) (w : World) (c : SessionCall) :
    (s.answer w c).2.Coherent := by
  cases c with
  | isReady => exact h
  | lastError => exact h
  | create capacity => exact h.create w capacity
  | destroy => exact h.destroy
  | configure d => exact h.congr rfl rfl
  | execute argv out => exact h.execute w argv out

end Coherent

/-- **Every session that can be reached is coherent**, whatever has been
done with it. -/
theorem Reached.coherent {s : Session τ} (h : s.Reached) : s.Coherent := by
  induction h with
  | new d t tables => exact ⟨rfl, fun b hb => nomatch hb⟩
  | transport t _ ih => exact ih.congr rfl rfl
  | answer w c _ ih => exact ih.answer w c

end Session

end NtpQuery
