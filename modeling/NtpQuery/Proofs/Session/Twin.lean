import NtpQuery.Proofs.Net.Alike
import NtpQuery.Proofs.Session.Lifecycle
import NtpQuery.Proofs.Session.Quiet

/-!
# Twins

Two sessions that are alike and have the same capacity are twins: every
operation is answered in the same way by both, output included, and leaves
them twins (`Session.Twin.answer`). So does every history, also if the
transports have different pasts (`Session.Twin.performAll`).

What the two remember as their most recent failure need not be the same.
It comes to light if a command asks for it before anything has failed
(`Session.asksEarly`). The standard commands never ask
(`Session.asksEarly_standard`).
-/

namespace NtpQuery

namespace Session

/-! ## What fails and what is asked in a history -/

section Asking

variable {τ : Type} [Transport τ]

/-- Whether something fails in a step. -/
def failsIn (s : Session τ) : Step τ → Bool
  | .call w (.create capacity) => !(s.create w capacity).1.isOk
  | .call w (.execute argv out) => (s.execute w argv out).fails
  | _ => false

/-- Whether, in a step, a command asks for a failure from before. -/
def asksIn (s : Session τ) : Step τ → Bool
  | .call w (.execute argv out) =>
    SessionCall.asksFirst (s.execute w argv out).reentrant
  | _ => false

/-- **Whether something fails in a history.** -/
def anyFails : List (Step τ) → Session τ → Bool
  | [], _ => false
  | step :: steps, s => s.failsIn step || anyFails steps (s.perform step)

/-- **Whether, in a history, a command asks for a failure from before.** -/
def asksEarly : List (Step τ) → Session τ → Bool
  | [], _ => false
  | step :: steps, s =>
    s.asksIn step || (!s.failsIn step && asksEarly steps (s.perform step))

/-- What is asked last counts as long as nothing has failed. -/
theorem asksEarly_concat (steps : List (Step τ)) (last : Step τ)
    (s : Session τ) :
    asksEarly (steps ++ [last]) s = (asksEarly steps s
      || (!anyFails steps s && (s.performAll steps).asksIn last)) := by
  induction steps generalizing s with
  | nil =>
    show (s.asksIn last || (_ && false)) = (false || (true && s.asksIn last))
    rw [Bool.and_false, Bool.or_false, Bool.true_and, Bool.false_or]
  | cons step steps ih =>
    show (_ || (_ && asksEarly (steps ++ [last]) (s.perform step)))
      = ((_ || (_ && asksEarly steps (s.perform step)))
        || (!(_ || anyFails steps (s.perform step)) && _))
    rw [ih]
    cases s.asksIn step <;> cases s.failsIn step <;> rfl

/-- **With the standard tables** no command asks for a failure. -/
theorem asksIn_standard {s : Session τ} (hs : s.Coherent)
    (htables : s.tables = Standard.tables) (step : Step τ) :
    s.asksIn step = false := by
  cases step with
  | incident change => rfl
  | call w c =>
    cases c with
    | execute argv out =>
      show SessionCall.asksFirst (s.run w argv).reentrant = false
      rw [reentrant_run hs htables]
      rfl
    | _ => rfl

/-- So none does in a history. -/
theorem asksEarly_standard {s : Session τ} (hs : s.Reached)
    (htables : s.tables = Standard.tables) (steps : List (Step τ)) :
    asksEarly steps s = false := by
  induction steps generalizing s with
  | nil => rfl
  | cons step steps ih =>
    have hrest := ih (hs.perform step) ((tables_perform s step).trans htables)
    show (s.asksIn step || (_ && asksEarly steps (s.perform step))) = false
    rw [asksIn_standard hs.coherent htables, hrest, Bool.and_false]
    rfl

end Asking

/-! ## The same operations in both -/

section Twins

variable {τ τ' : Type} [Transport τ] [Transport τ'] {R : τ → τ' → Prop}
variable {known : Bool} {s : Session τ} {s' : Session τ'}

omit [Transport τ] [Transport τ'] in
/-- **Twins**: sessions that are alike and have the same capacity. -/
structure Twin (R : τ → τ' → Prop) (known : Bool) (s : Session τ)
    (s' : Session τ') : Prop where
  /-- They are alike. -/
  alike : s.Alike R known s'
  /-- They have the same capacity, or both have no buffer. -/
  capacity : s.buffer.map (·.capacity) = s'.buffer.map (·.capacity)

namespace Twin

omit [Transport τ] [Transport τ'] in
/-- **Recording how an operation ends** keeps twins. -/
theorem record {α : Type} (h : Twin R known s s')
    (result : Except Failure α) :
    Twin R (known || !result.isOk) (s.record result) (s'.record result) := by
  refine ⟨h.alike.record result, ?_⟩
  rw [(record_frame s result).2.2.1, (record_frame s' result).2.2.1]
  exact h.capacity

/-- **Opening** both does the same to them. -/
theorem create (hR : Transport.Alike R) (h : Twin R known s s') (w : World)
    (n : Nat) :
    (s.create w n).1 = (s'.create w n).1
      ∧ Twin R (known || !(s.create w n).1.isOk) (s.create w n).2
        (s'.create w n).2 := by
  have hcoherent := h.alike.coherent.create w n
  have hcoherent' := h.alike.coherent'.create w n
  unfold Session.create at hcoherent hcoherent' ⊢
  by_cases hopened : s.opened = true
  · have hopened' : s'.opened = true := h.alike.opened ▸ hopened
    rw [if_pos hopened, if_pos hopened']
    exact ⟨rfl, h.record _⟩
  · have hopened' : ¬ s'.opened = true := h.alike.opened ▸ hopened
    rw [if_neg hopened] at hcoherent ⊢
    rw [if_neg hopened'] at hcoherent' ⊢
    cases hb : Buffer.allocate w.openFiles n w.memory with
    | error e => exact ⟨rfl, h.record _⟩
    | ok b =>
      rw [hb] at hcoherent hcoherent'
      refine ⟨rfl, ⟨hcoherent, hcoherent', h.alike.client.reset hR.close,
        h.alike.tables, rfl, fun hk => h.alike.lastError ?_⟩, rfl⟩
      rwa [show (!(Except.ok () : Except Failure Unit).isOk) = false from rfl,
        Bool.or_false] at hk

/-- **Closing** both does the same to them. -/
theorem destroy (hR : Transport.Alike R) (h : Twin R known s s') :
    Twin R known s.destroy s'.destroy := by
  have hcoherent := h.alike.coherent.destroy
  have hcoherent' := h.alike.coherent'.destroy
  cases hopened : s.opened with
  | true =>
    rw [destroy_of_opened hopened] at hcoherent ⊢
    rw [destroy_of_opened (h.alike.opened ▸ hopened)] at hcoherent' ⊢
    exact ⟨⟨hcoherent, hcoherent', h.alike.client.reset hR.close,
      h.alike.tables, rfl, h.alike.lastError⟩, rfl⟩
  | false =>
    rwa [destroy_of_closed hopened,
      destroy_of_closed (h.alike.opened ▸ hopened)]

/-- **Other defaults** do the same to both. -/
theorem configure (hR : Transport.Alike R) (h : Twin R known s s')
    (d : Defaults) : Twin R known (s.configure d) (s'.configure d) :=
  ⟨⟨h.alike.coherent.congr rfl rfl, h.alike.coherent'.congr rfl rfl,
    h.alike.client.adopt hR.close d, h.alike.tables, h.alike.scratch,
    h.alike.lastError⟩, h.capacity⟩

/-- **Executing a command line** does the same to both, unless the command
asks for a failure that need not be known. -/
theorem execute (hR : Transport.Alike R) (h : Twin R known s s')
    (w : World) (argv : List String) (out : Bytes) :
    (known = false
        ∧ SessionCall.asksFirst (s.execute w argv out).reentrant = true)
      ∨ (s.execute w argv out).result = (s'.execute w argv out).result
        ∧ (s.execute w argv out).output = (s'.execute w argv out).output
        ∧ Twin R (known || (s.execute w argv out).fails)
          (s.execute w argv out).session
          (s'.execute w argv out).session := by
  have hcapacity : s.capacity = s'.capacity := by
    rw [capacity_eq, capacity_eq, h.capacity]
  refine (execute_alike hR h.alike w argv out out).imp id fun he => ?_
  obtain ⟨stream, houtput, houtput'⟩ := he.output
  refine ⟨he.result, ?_, he.session, ?_⟩
  · rw [houtput, houtput', hcapacity]
  · rw [(h.alike.coherent.execute_frame w argv out).2.1,
      (h.alike.coherent'.execute_frame w argv out).2.1]
    exact h.capacity

/-- **Every operation** does the same to both, and is answered in the same
way, unless it asks for a failure that need not be known. -/
theorem answer (hR : Transport.Alike R) (h : Twin R known s s') (w : World)
    (c : SessionCall) :
    (known = false ∧ s.asksIn (.call w c) = true)
      ∨ ((c = .lastError → known = true) →
          (s.answer w c).1 = (s'.answer w c).1)
        ∧ Twin R (known || s.failsIn (.call w c)) (s.answer w c).2
          (s'.answer w c).2 := by
  have hquiet : Twin R (known || false) s s' := by rwa [Bool.or_false]
  cases c with
  | isReady => exact Or.inr ⟨fun _ => h.alike.isReady, hquiet⟩
  | lastError =>
    exact Or.inr ⟨fun hk => h.alike.lastError (hk rfl), hquiet⟩
  | create n =>
    obtain ⟨hresult, hnext⟩ := h.create hR w n
    exact Or.inr ⟨fun _ => hresult, hnext⟩
  | destroy => exact Or.inr ⟨fun _ => rfl, hquiet.destroy hR⟩
  | configure d => exact Or.inr ⟨fun _ => rfl, hquiet.configure hR d⟩
  | execute argv out =>
    refine (h.execute hR w argv out).imp id ?_
    rintro ⟨hresult, houtput, hnext⟩
    exact ⟨fun _ => Prod.ext hresult houtput, hnext⟩

/-- **With the standard tables** there is no exception. -/
theorem answer_standard (hR : Transport.Alike R) (h : Twin R known s s')
    (htables : s.tables = Standard.tables) (w : World) (c : SessionCall) :
    ((c = .lastError → known = true) →
        (s.answer w c).1 = (s'.answer w c).1)
      ∧ Twin R (known || s.failsIn (.call w c)) (s.answer w c).2
        (s'.answer w c).2 := by
  have hquiet := asksIn_standard h.alike.coherent htables (.call w c)
  exact (h.answer hR w c).resolve_left
    fun hasks => Bool.false_ne_true (hquiet.symm.trans hasks.2)

/-- **What happens to both transports by itself** keeps twins, if it keeps
the transports related. -/
theorem incident (h : Twin R known s s') {change : τ → τ}
    {change' : τ' → τ'}
    (hchange : ∀ {t t'}, R t t' → R (change t) (change' t')) :
    Twin R known (s.perform (.incident change))
      (s'.perform (.incident change')) := by
  cases hopened : s.opened with
  | true =>
    rw [incident_of_opened hopened,
      incident_of_opened (h.alike.opened ▸ hopened)]
    obtain ⟨hstate, hdefaults, htransport⟩ := h.alike.client
    exact ⟨⟨h.alike.coherent.congr rfl rfl, h.alike.coherent'.congr rfl rfl,
      ⟨hstate, hdefaults, hchange htransport⟩, h.alike.tables,
      h.alike.scratch, h.alike.lastError⟩, h.capacity⟩
  | false =>
    rwa [incident_of_closed hopened,
      incident_of_closed (h.alike.opened ▸ hopened)]

end Twin

end Twins

/-! ## The same history in both -/

section Future

variable {τ : Type} [Transport τ] {known : Bool}
variable {old old' : List NetEvent} {s s' : Session (Traced τ)}

/-- The same step where the transport keeps account. -/
def Step.traced : Step τ → Step (Traced τ)
  | .call w c => .call w c
  | .incident change => .incident fun t => { t with inner := change t.inner }

/-- **Every step** keeps twins whose pasts differ, unless a command asks
for a failure that need not be known. -/
theorem Twin.perform (h : Twin (Traced.SameSince old old') known s s')
    (step : Step τ) :
    (known = false ∧ s.asksIn step.traced = true)
      ∨ Twin (Traced.SameSince old old') (known || s.failsIn step.traced)
        (s.perform step.traced) (s'.perform step.traced) := by
  cases step with
  | call w c =>
    exact (h.answer (Traced.alike_sameSince old old') w c).imp id And.right
  | incident change =>
    have hchange : ∀ {t t' : Traced τ}, Traced.SameSince old old' t t' →
        Traced.SameSince old old' { t with inner := change t.inner }
          { t' with inner := change t'.inner } :=
      fun ⟨hinner, hevents⟩ => ⟨congrArg change hinner, hevents⟩
    have hnext := h.incident hchange
    refine Or.inr ?_
    show Twin _ (known || false) _ _
    rwa [Bool.or_false]

/-- **So does every history**, with that one exception. -/
theorem Twin.performAll (h : Twin (Traced.SameSince old old') known s s')
    (steps : List (Step τ)) :
    (known = false ∧ asksEarly (steps.map Step.traced) s = true)
      ∨ Twin (Traced.SameSince old old')
        (known || anyFails (steps.map Step.traced) s)
        (s.performAll (steps.map Step.traced))
        (s'.performAll (steps.map Step.traced)) := by
  induction steps generalizing known s s' with
  | nil =>
    refine Or.inr ?_
    rwa [show anyFails (List.map Step.traced []) s = false from rfl,
      Bool.or_false]
  | cons step steps ih =>
    have hearly : asksEarly ((step :: steps).map Step.traced) s
        = (s.asksIn step.traced || (!s.failsIn step.traced
          && asksEarly (steps.map Step.traced) (s.perform step.traced))) := rfl
    rcases h.perform step with ⟨hknown, hasks⟩ | hnext
    · refine Or.inl ⟨hknown, ?_⟩
      rw [hearly, hasks, Bool.true_or]
    · rcases ih hnext with ⟨hquiet, hasks⟩ | hend
      · obtain ⟨hknown, hfails⟩ := Bool.or_eq_false_iff.mp hquiet
        refine Or.inl ⟨hknown, ?_⟩
        rw [hearly, hfails, hasks]
        exact Bool.or_true _
      · rw [Bool.or_assoc] at hend
        exact Or.inr hend

end Future

end Session

end NtpQuery
