import NtpQuery.Proofs.Session.Inquiries
import NtpQuery.Proofs.Session.Lifecycle

/-!
# The queries of a session

Only command lines make queries. `Session.inquiries` lists those of a step
in the history of a session, and `Session.inquiriesAll` those of a whole
history. The client starts again from defaults in the steps that a session
`resets` it, and `Session.sinceReset` lists the queries that it has made
since the last of them.

Whatever commands uphold, a step of a session upholds as well, unless it
resets the client (`Session.upheld_perform`).
-/

namespace NtpQuery

namespace Session

variable {τ : Type} [Transport τ]

/-- **The queries of a step**, oldest first. -/
def inquiries (s : Session τ) : Step τ → List (Inquiry τ)
  | .call w (.execute (keyword :: raws) _) =>
    match s.buffer with
    | some buffer =>
      if s.isReady then
        Run.inquiriesOf s.tables keyword raws (s.start w buffer.clear)
      else []
    | none => []
  | _ => []

/-- **The queries of a history.** -/
def inquiriesAll : List (Step τ) → Session τ → List (Inquiry τ)
  | [], _ => []
  | step :: steps, s => s.inquiries step ++ inquiriesAll steps (s.perform step)

/-- **Whether a step resets the client**: opening and closing do, and so
does a configuration. -/
def resets (s : Session τ) : Step τ → Bool
  | .call w (.create capacity) => (s.create w capacity).1.isOk
  | .call _ .destroy => s.opened
  | .call _ (.configure _) => true
  | _ => false

/-- **The queries since the last reset**, when so many have been made
since then before the history. -/
def sinceReset : List (Step τ) → Session τ → List (Inquiry τ) →
    List (Inquiry τ)
  | [], _, made => made
  | step :: steps, s, made =>
    sinceReset steps (s.perform step)
      (if s.resets step then [] else made ++ s.inquiries step)

variable {s : Session τ} {I : List (Inquiry τ) → Client τ → Prop}
variable {made : List (Inquiry τ)}

/-- **A step that resets the client** makes no query. The defaults that the
client starts from again are its own, or those of a configuration. -/
theorem perform_of_resets {step : Step τ} (h : s.resets step = true) :
    s.inquiries step = []
      ∧ ∃ d, (s.perform step).client = s.client.adopt d
        ∧ (d = s.client.defaults ∨ ∃ w, step = .call w (.configure d)) := by
  cases step with
  | incident change => exact absurd h Bool.false_ne_true
  | call w c =>
    cases c with
    | create n =>
      have hok : (s.create w n).1.isOk = true := h
      refine ⟨rfl, s.client.defaults, ?_, Or.inl rfl⟩
      show (s.create w n).2.client = _
      rcases s.create_cases w n with
        ⟨-, heq⟩ | ⟨-, e, -, heq⟩ | ⟨-, b, -, heq⟩
      · rw [heq] at hok
        exact absurd hok Bool.false_ne_true
      · rw [heq] at hok
        exact absurd hok Bool.false_ne_true
      · rw [heq]
        rfl
    | destroy =>
      refine ⟨rfl, s.client.defaults, ?_, Or.inl rfl⟩
      show s.destroy.client = _
      rw [destroy_of_opened h]
      rfl
    | configure d => exact ⟨rfl, d, rfl, Or.inr ⟨w, rfl⟩⟩
    | _ => exact absurd h Bool.false_ne_true

/-- **A command line** upholds what commands uphold. -/
theorem upheld_execute (hI : Client.Upheld I)
    (htables : s.tables = Standard.tables) (h : I made s.client) (w : World)
    (argv : List String) (out : Bytes) :
    I (made ++ s.inquiries (.call w (.execute argv out)))
      (s.execute w argv out).session.client := by
  rw [show (s.execute w argv out).session.client
    = (s.run w argv).session.client from (record_frame _ _).1]
  cases hready : s.isReady with
  | false =>
    rw [run_of_not_ready hready]
    have hnone : s.inquiries (.call w (.execute argv out)) = [] := by
      unfold inquiries
      cases argv with
      | nil => rfl
      | cons keyword raws => cases s.buffer <;> simp [hready]
    rw [hnone]
    exact Client.none_made h
  | true =>
    cases argv with
    | nil =>
      rw [run_nil hready]
      exact Client.none_made h
    | cons keyword raws =>
      obtain ⟨hopened, buffer, hbuffer⟩ := exists_buffer_of_ready hready
      rw [run_cons hopened hbuffer]
      simp only [inquiries, hbuffer, hready, if_true]
      rw [htables]
      exact Run.upheld_dispatch hI (fun d hd i => Standard.settles hd i)
        keyword raws h

/-- **A step** upholds what commands uphold, unless it resets the
client. -/
theorem upheld_perform (hI : Client.Upheld I)
    (htables : s.tables = Standard.tables) (h : I made s.client)
    {step : Step τ} (hstep : s.resets step = false)
    (hincident : ∀ change, step = .incident change →
      I made { s.client with transport := change s.client.transport }) :
    I (made ++ s.inquiries step) (s.perform step).client := by
  cases step with
  | incident change =>
    refine Client.none_made ?_
    cases hopened : s.opened with
    | true =>
      rw [incident_of_opened hopened]
      exact hincident change rfl
    | false => rwa [incident_of_closed hopened]
  | call w c =>
    cases c with
    | execute argv out => exact upheld_execute hI htables h w argv out
    | create n =>
      have hok : (s.create w n).1.isOk = false := hstep
      refine Client.none_made ?_
      show I made (s.create w n).2.client
      rcases s.create_cases w n with
        ⟨-, heq⟩ | ⟨-, e, -, heq⟩ | ⟨-, b, -, heq⟩
      · rwa [heq]
      · rwa [heq]
      · rw [heq] at hok
        exact absurd hok.symm Bool.false_ne_true
    | destroy =>
      refine Client.none_made ?_
      show I made s.destroy.client
      rwa [destroy_of_closed hstep]
    | configure d => exact absurd hstep.symm Bool.false_ne_true
    | isReady => exact Client.none_made h
    | lastError => exact Client.none_made h

end Session

end NtpQuery
