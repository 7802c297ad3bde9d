import NtpQuery.Proofs.Session.Alike

/-!
# The life of a session

The history of a session is a list of steps: its operations, and what
happens to the transport by itself while the session is open. Of these,
only opening and closing matter to whether the session is open. The last
of them that took effect decides (`Session.isReady_performAll`), whatever
commands were executed before, between and after.

The session counts as opened by a mark, and holds a capture buffer or
does not. The two are written by different statements, on paths that may
end halfway, and yet they agree in all histories (`Session.lifecycle`).
-/

namespace NtpQuery

namespace Session

/-- **A step in the history of a session.** -/
inductive Step (τ : Type) where
  /-- An operation is carried out, in some world. -/
  | call (w : World) (c : SessionCall)
  /-- The transport changes by itself, as when a late datagram arrives. -/
  | incident (change : τ → τ)

/-- **What decides whether a session is open.** -/
inductive Turn where
  /-- It was opened. -/
  | opening
  /-- It was closed. -/
  | closing
  deriving DecidableEq

variable {τ : Type} [Transport τ]

/-- The session after a step. Nothing happens by itself to the transport
of a closed session, for its socket has been dropped. -/
def perform (s : Session τ) : Step τ → Session τ
  | .call w c => (s.answer w c).2
  | .incident change =>
    if s.opened then
      { s with client :=
        { s.client with transport := change s.client.transport } }
    else s

/-- **The session after its history.** -/
def performAll (steps : List (Step τ)) (s : Session τ) : Session τ :=
  steps.foldl perform s

/-- Whether a step opens or closes the session: a creation that succeeds
does, and so does a destruction that finds the session ready. -/
def turn? (s : Session τ) : Step τ → Option Turn
  | .call w (.create capacity) =>
    if (s.create w capacity).1.isOk then some .opening else none
  | .call _ .destroy => if s.isReady then some .closing else none
  | _ => none

/-- **The turns of a history**, oldest first. -/
def turns : List (Step τ) → Session τ → List Turn
  | [], _ => []
  | step :: steps, s => (s.turn? step).toList ++ turns steps (s.perform step)

variable {s : Session τ}

/-- Something happens to the transport of an open session. -/
theorem incident_of_opened (h : s.opened = true) (change : τ → τ) :
    s.perform (.incident change) = { s with client :=
      { s.client with transport := change s.client.transport } } := by
  unfold perform
  dsimp only
  rw [if_pos h]

/-- Nothing happens to that of a closed one. -/
theorem incident_of_closed (h : s.opened = false) (change : τ → τ) :
    s.perform (.incident change) = s := by
  unfold perform
  dsimp only
  rw [h, if_neg Bool.false_ne_true]

/-- What happens to the transport by itself leaves the rest of the session
alone. -/
theorem perform_incident (s : Session τ) (change : τ → τ) :
    ∃ t, s.perform (.incident change)
      = { s with client := { s.client with transport := t } } := by
  by_cases hopened : s.opened = true
  · exact ⟨_, incident_of_opened hopened change⟩
  · exact ⟨_, incident_of_closed (Bool.eq_false_iff.mpr hopened) change⟩

/-- **A step** leads to a session that can be reached. -/
theorem Reached.perform (h : s.Reached) (step : Step τ) :
    (s.perform step).Reached := by
  cases step with
  | call w c => exact h.answer w c
  | incident change =>
    obtain ⟨t, heq⟩ := s.perform_incident change
    rw [heq]
    exact h.transport t

/-- So does a history. -/
theorem Reached.performAll (h : s.Reached) (steps : List (Step τ)) :
    (s.performAll steps).Reached := by
  induction steps generalizing s with
  | nil => exact h
  | cons step steps ih => exact ih (h.perform step)

/-- **The tables of a session** stay what they were. -/
theorem tables_perform (s : Session τ) (step : Step τ) :
    (s.perform step).tables = s.tables := by
  cases step with
  | incident change =>
    obtain ⟨t, heq⟩ := s.perform_incident change
    rw [heq]
  | call w c =>
    cases c with
    | create n =>
      show (s.create w n).2.tables = s.tables
      rcases s.create_cases w n with
        ⟨-, heq⟩ | ⟨-, e, -, heq⟩ | ⟨-, b, -, heq⟩
      · rw [heq]
      · rw [heq]
      · rw [heq]
    | destroy =>
      show s.destroy.tables = s.tables
      cases hopened : s.opened with
      | true => rw [destroy_of_opened hopened]
      | false => rw [destroy_of_closed hopened]
    | execute argv out =>
      exact (record_frame _ _).2.2.2.trans (run_frame s w argv).2
    | _ => rfl

theorem tables_performAll (steps : List (Step τ)) (s : Session τ) :
    (s.performAll steps).tables = s.tables := by
  induction steps generalizing s with
  | nil => rfl
  | cons step steps ih => exact (ih _).trans (tables_perform s step)

/-- **A turn decides** whether the session is open; any other step leaves
that as it is. -/
theorem isReady_perform (h : s.Reached) (step : Step τ) :
    (s.perform step).isReady
      = ((s.turn? step).map (· == .opening)).getD s.isReady := by
  have hready := h.coherent.isReady_eq
  rw [(h.perform step).coherent.isReady_eq]
  cases step with
  | incident change =>
    obtain ⟨t, heq⟩ := s.perform_incident change
    rw [heq]
    exact hready.symm
  | call w c =>
    cases c with
    | create capacity =>
      show (s.create w capacity).2.opened
        = ((if (s.create w capacity).1.isOk then some Turn.opening
          else none).map (· == .opening)).getD s.isReady
      rcases s.create_cases w capacity with
        ⟨-, heq⟩ | ⟨-, e, -, heq⟩ | ⟨-, b, -, heq⟩
      · rw [heq]
        exact hready.symm
      · rw [heq]
        exact hready.symm
      · rw [heq]
        rfl
    | destroy =>
      show s.destroy.opened = ((if s.isReady then some Turn.closing
        else none).map (· == .opening)).getD s.isReady
      rw [hready]
      cases hopened : s.opened with
      | true =>
        rw [destroy_of_opened hopened]
        rfl
      | false =>
        rw [destroy_of_closed hopened]
        exact hopened
    | execute argv out =>
      exact (h.coherent.execute_frame w argv out).1.trans hready.symm
    | _ => exact hready.symm

/-- **The last turn of a history decides** whether the session is open. -/
theorem isReady_performAll (h : s.Reached) (steps : List (Step τ)) :
    (s.performAll steps).isReady
      = ((turns steps s).getLast?.map (· == .opening)).getD s.isReady := by
  induction steps generalizing s with
  | nil => rfl
  | cons step steps ih =>
    refine (ih (h.perform step)).trans ?_
    rw [isReady_perform h step, show turns (step :: steps) s
      = (s.turn? step).toList ++ turns steps (s.perform step) from rfl,
      List.getLast?_append]
    cases (turns steps (s.perform step)).getLast? with
    | some last => rfl
    | none => cases s.turn? step <;> rfl

/-- **A creation that fails** is recorded and changes nothing else. A
closed session lacks memory then. -/
theorem create_of_error {w : World} {capacity : Nat} {e : Failure}
    (h : (s.create w capacity).1 = .error e) :
    (s.create w capacity).2 = { s with lastError := .ofFailure e }
      ∧ (s.opened = false → ∃ requested, e = .outOfMemory requested) := by
  rcases s.create_cases w capacity with
    ⟨hopened, heq⟩ | ⟨-, e', hbuffer, heq⟩ | ⟨-, b, -, heq⟩
  · rw [heq] at h ⊢
    obtain rfl := Except.error.inj h
    exact ⟨rfl, fun hclosed => absurd (hclosed.symm.trans hopened)
      Bool.false_ne_true⟩
  · rw [heq] at h ⊢
    obtain rfl := Except.error.inj h
    exact ⟨rfl, fun _ => Buffer.eq_outOfMemory_of_allocate hbuffer⟩
  · rw [heq] at h
    exact nomatch h

/-- **The life of a session.** After any history, a session is ready
exactly while it holds a capture buffer, and exactly if the last turn was
an opening. A command line changes none of this, nor the capacity nor the
tables, however it ends. A failed creation is recorded and changes nothing
else; on an open session it fails for that reason, whatever the size.
Closing a closed session changes nothing, and other defaults only reset
the client. -/
theorem lifecycle (d : Defaults) (t : τ) (tables : Tables Handler)
    (steps : List (Step τ)) :
    let s := (new d t tables).performAll steps
    (s.isReady = true ↔ s.buffer.isSome = true)
      ∧ (s.isReady = true
        ↔ (turns steps (new d t tables)).getLast? = some .opening)
      ∧ (∀ w argv out, let e := s.execute w argv out
        e.session.isReady = s.isReady
          ∧ e.session.buffer.map (·.capacity) = s.buffer.map (·.capacity)
          ∧ e.session.tables = s.tables)
      ∧ (∀ w capacity e, (s.create w capacity).1 = .error e →
        (s.create w capacity).2 = { s with lastError := .ofFailure e }
          ∧ (s.isReady = false → ∃ requested, e = .outOfMemory requested))
      ∧ (s.isReady = true → ∀ w capacity,
        (s.create w capacity).1 = .error .alreadyOpen)
      ∧ (s.isReady = false → s.destroy = s)
      ∧ ∀ d', s.configure d' = { s with
        client := ⟨Client.State.ofDefaults d', d',
          Transport.close s.client.transport⟩ } := by
  intro s
  have hstart : (new d t tables).Reached := .new d t tables
  have hs : s.Reached := hstart.performAll steps
  have hready : s.isReady = s.opened := hs.coherent.isReady_eq
  refine ⟨?_, ?_, fun w argv out => ?_, fun w capacity e he => ?_,
    fun hopen w capacity => ?_, fun hclosed => ?_, fun d' => rfl⟩
  · rw [hready, hs.coherent.opened]
  · have hlast : s.isReady = ((turns steps (new d t tables)).getLast?.map
        (· == .opening)).getD false := isReady_performAll hstart steps
    rw [hlast]
    cases (turns steps (new d t tables)).getLast? with
    | none => decide
    | some last => cases last <;> decide
  · have he := (hs.coherent.execute w argv out).isReady_eq
    obtain ⟨hopened, hcapacity, htables⟩ :=
      hs.coherent.execute_frame w argv out
    exact ⟨he.trans (hopened.trans hready.symm), hcapacity, htables⟩
  · obtain ⟨hrecorded, hcause⟩ := create_of_error he
    exact ⟨hrecorded, fun hclosed => hcause (hready.symm.trans hclosed)⟩
  · rw [create_of_opened (hready.symm.trans hopen)]
  · exact destroy_of_closed (hready.symm.trans hclosed)

end Session

end NtpQuery
