import NtpQuery.Proofs.Command.Steady
import NtpQuery.Proofs.Session.Reached

/-!
# Commands do not turn to their session

A command may make calls on the session that is running it. None of the
commands that there are does, and reading arguments cannot. So in a
session with the standard tables no command line leads to such a call
(`Session.reentrant_run`), and in particular none asks for the failure
that the session remembers.
-/

namespace NtpQuery

namespace Run

variable {τ ω : Type} [Transport τ] [Workspace ω]

/-- A steady call is no call on the session. -/
theorem reentrant_answer (catalogue : Tables Unit) {call : CommandCall}
    {r : Run τ ω} (h : call.Steady r) :
    (answer catalogue call r).2.reentrant = r.reentrant := by
  cases call with
  | session c => exact h.elim
  | _ => rfl

/-- Reading the list of associations for an argument makes none. -/
theorem reentrant_refreshForArgument (r : Run τ ω) :
    r.refreshForArgument.reentrant = r.reentrant := by
  unfold refreshForArgument
  split
  next h => exact (congrArg (fun x => x.2.reentrant) h).symm
  next h => exact (congrArg (fun x => x.2.reentrant) h).symm

/-- **Reading arguments** makes no call on the session. -/
theorem reentrant_invocation (keyword : String) (slots : List Slot)
    (raws : List String) (r : Run τ ω) :
    (Coercion.invocation keyword slots raws r).2.reentrant
      = r.reentrant :=
  keeps_invocation (I := fun q => q.reentrant = r.reentrant)
    (fun q hq => (reentrant_refreshForArgument q).trans hq) keyword slots
    raws rfl

/-- **A command line makes no call on the session** if the routines of the
commands are steady. -/
theorem reentrant_dispatch {tables : Tables Handler}
    (htables : ∀ d ∈ tables.commands, ∀ i,
      Routine.Steady τ ω (d.action i))
    (keyword : String) (raws : List String) (r : Run τ ω) :
    (dispatch tables keyword raws r).2.reentrant = r.reentrant := by
  unfold dispatch
  cases hresolve : tables.resolve keyword with
  | none => rfl
  | some d =>
    have hread := reentrant_invocation keyword d.slots raws r
    dsimp only
    unfold invoke
    generalize Coercion.invocation keyword d.slots raws r = q at hread ⊢
    obtain ⟨_ | i, r'⟩ := q
    · exact hread
    · have hd := htables d (Tables.mem_commands_of_resolve hresolve) i
      have hrun := hd.keeps (I := fun q => q.reentrant = r'.reentrant)
        (fun t _ _ hsteady hq => (reentrant_answer t hsteady).trans hq)
        (tables.map fun _ => ()) rfl
      dsimp only at hread ⊢
      generalize r'.perform (tables.map fun _ => ()) (d.action i) = p
        at hrun ⊢
      obtain ⟨_ | _, _⟩ := p <;> exact hrun.trans hread

end Run

/-- **With the standard tables, no command turns to its session.** -/
theorem Session.reentrant_run {τ : Type} [Transport τ] {s : Session τ}
    (hs : s.Coherent) (htables : s.tables = Standard.tables) (w : World)
    (argv : List String) : (s.run w argv).reentrant = [] := by
  rcases hs.cases with ⟨b, hopened, hbuffer, -⟩ | ⟨hopened, -⟩
  · cases argv with
    | nil => rw [run_nil (by rw [hs.isReady_eq, hopened])]
    | cons keyword raws =>
      rw [run_cons hopened hbuffer, htables]
      exact Run.reentrant_dispatch (fun d hd i => Standard.steady hd i)
        keyword raws _
  · rw [run_of_not_ready (by rw [hs.isReady_eq, hopened])]

end NtpQuery
