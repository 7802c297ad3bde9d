import NtpQuery.Program

/-!
# Runs of programs

Some facts about running a program hold for every program there is, by
induction on the tree. If two ways of answering calls agree on related
states and keep them related, then no program tells them apart
(`Program.run_related_unless`). A program that does not heed what some of
its calls return can do without them (`Program.run_without`). The calls
that a run makes, each with the state in which it is made, are those of its
parts (`Program.calls_bind`), and a log that calls are put down in is a list
of them (`Program.log_run`).
-/

namespace NtpQuery

/-- Two answers with the same result differ in the state only. -/
theorem exists_of_fst_eq {α β γ : Type} {p : α × β} {q : α × γ}
    (h : p.1 = q.1) : ∃ a b c, p = (a, b) ∧ q = (a, c) :=
  ⟨p.1, p.2, q.2, rfl, Prod.ext h.symm rfl⟩

namespace Program

variable {κ σ σ' : Type} {Answer : κ → Type} {α β : Type}

/-- **No program tells related states apart** if no call does, or none
but such as leave the first run `Spoilt` for good. -/
theorem run_related_unless {answer : (c : κ) → σ → Answer c × σ}
    {answer' : (c : κ) → σ' → Answer c × σ'} {R : σ → σ' → Prop}
    {Spoilt : σ → Prop}
    (hspoilt : ∀ c s, Spoilt s → Spoilt (answer c s).2)
    (hcall : ∀ c s s', R s s' → Spoilt (answer c s).2
      ∨ (answer c s).1 = (answer' c s').1
        ∧ R (answer c s).2 (answer' c s').2)
    (p : Program Answer α) {s : σ} {s' : σ'} (h : R s s') :
    Spoilt (p.run answer s).2
      ∨ (p.run answer s).1 = (p.run answer' s').1
        ∧ R (p.run answer s).2 (p.run answer' s').2 := by
  have hstay : ∀ (p : Program Answer α) (s : σ), Spoilt s →
      Spoilt (p.run answer s).2 := by
    intro p
    induction p with
    | done a => exact fun s hs => hs
    | call c next ih => exact fun s hs => ih _ _ (hspoilt c s hs)
  induction p generalizing s s' with
  | done a => exact Or.inr ⟨rfl, h⟩
  | call c next ih =>
    rcases hcall c s s' h with hs | ⟨heq, hnext⟩
    · exact Or.inl (hstay (next (answer c s).1) _ hs)
    · unfold run
      rw [heq]
      exact ih _ hnext

/-- A program over other calls runs as if its own calls were answered by the
programs that take their places. -/
theorem run_substitute {κ' : Type} {Answer' : κ' → Type}
    (answer' : (c : κ') → σ → Answer' c × σ)
    (f : (c : κ) → Program Answer' (Answer c)) (p : Program Answer α)
    (s : σ) :
    (p.substitute f).run answer' s
      = p.run (fun c s => (f c).run answer' s) s := by
  induction p generalizing s with
  | done a => rfl
  | call c next ih =>
    refine (run_bind answer' (f c) _ s).trans ?_
    exact ih _ _

/-- **The program without some of its calls.** Where one is left out, the
program goes on from a guess at its answer. -/
def without (guess : (c : κ) → Option (Answer c)) :
    Program Answer α → Program Answer α
  | done a => done a
  | call c next =>
    match guess c with
    | some answer => (next answer).without guess
    | none => call c fun answer => (next answer).without guess

/-- **A program that does not heed the answers** that can be guessed:
whatever such an answer is, the program goes on as it does from the
guess. -/
def Heedless (guess : (c : κ) → Option (Answer c)) :
    Program Answer α → Prop
  | done _ => True
  | call c next =>
    (∀ answer, (next answer).Heedless guess)
      ∧ ∀ g ∈ guess c, ∀ answer,
        (next answer).without guess = (next g).without guess

/-- **A heedless program can do without the calls** whose answers can be
guessed, if these calls keep the first of two related states related to
the second and the other calls agree on related states. -/
theorem run_without {answer : (c : κ) → σ → Answer c × σ}
    {answer' : (c : κ) → σ' → Answer c × σ'} {R : σ → σ' → Prop}
    {guess : (c : κ) → Option (Answer c)}
    (hskip : ∀ c s s', (guess c).isSome = true → R s s' →
      R (answer c s).2 s')
    (hcall : ∀ c s s', guess c = none → R s s' →
      (answer c s).1 = (answer' c s').1
        ∧ R (answer c s).2 (answer' c s').2)
    {p : Program Answer α} (hp : p.Heedless guess) {s : σ} {s' : σ'}
    (h : R s s') :
    (p.run answer s).1 = ((p.without guess).run answer' s').1
      ∧ R (p.run answer s).2 ((p.without guess).run answer' s').2 := by
  induction p generalizing s s' with
  | done a => exact ⟨rfl, h⟩
  | call c next ih =>
    obtain ⟨hnext, hsame⟩ := hp
    cases hguess : guess c with
    | some g =>
      have hwithout : (call c next).without guess
          = (next (answer c s).1).without guess := by
        rw [hsame g hguess]
        simp only [without, hguess]
      rw [hwithout]
      exact ih _ (hnext _) (hskip c s s' (hguess ▸ rfl) h)
    | none =>
      obtain ⟨heq, hrel⟩ := hcall c s s' hguess h
      have hwithout : (call c next).without guess
          = call c fun answer => (next answer).without guess := by
        simp only [without, hguess]
      rw [hwithout]
      unfold run
      rw [heq]
      exact ih _ (hnext _) hrel

/-- **The calls that a run makes**, oldest first, each with the state in
which it is made. -/
def calls (answer : (c : κ) → σ → Answer c × σ) :
    Program Answer α → σ → List (κ × σ)
  | done _, _ => []
  | call c next, s =>
    (c, s) :: (next (answer c s).1).calls answer (answer c s).2

/-- **What every call keeps** holds whenever a call is made. -/
theorem keeps_calls {answer : (c : κ) → σ → Answer c × σ} {I : σ → Prop}
    (hI : ∀ c s, I s → I (answer c s).2) (p : Program Answer α) {s : σ}
    (hs : I s) : ∀ x ∈ p.calls answer s, I x.2 := by
  induction p generalizing s with
  | done a => exact fun x hx => absurd hx List.not_mem_nil
  | call c next ih =>
    intro x hx
    rcases List.mem_cons.mp hx with rfl | hx
    · exact hs
    · exact ih _ (hI c s hs) x hx

/-- **What calls put down in a log** is in it after the run, in their
order. -/
theorem log_run {ε : Type} {answer : (c : κ) → σ → Answer c × σ}
    (log : σ → List ε) (entry : κ → σ → Option ε)
    (hlog : ∀ c s, log (answer c s).2 = log s ++ (entry c s).toList)
    (p : Program Answer α) (s : σ) :
    log (p.run answer s).2
      = log s ++ (p.calls answer s).filterMap fun x => entry x.1 x.2 := by
  induction p generalizing s with
  | done a => exact (List.append_nil _).symm
  | call c next ih =>
    refine (ih (answer c s).1 (answer c s).2).trans ?_
    rw [hlog, List.append_assoc, show (call c next).calls answer s
      = (c, s) :: (next (answer c s).1).calls answer (answer c s).2 from rfl,
      List.filterMap_cons]
    cases entry c s <;> rfl

/-- Whenever a call is made, the log has the entries of those before it. -/
theorem log_calls {ε : Type} {answer : (c : κ) → σ → Answer c × σ}
    (log : σ → List ε) (entry : κ → σ → Option ε)
    (hlog : ∀ c s, log (answer c s).2 = log s ++ (entry c s).toList)
    (p : Program Answer α) {s : σ} {before : List (κ × σ)} {x : κ × σ}
    (h : before ++ [x] <+: p.calls answer s) :
    log x.2 = log s ++ before.filterMap fun y => entry y.1 y.2 := by
  induction p generalizing s before with
  | done a => exact absurd h (by simp [calls])
  | call c next ih =>
    cases before with
    | nil =>
      obtain ⟨rfl, -⟩ := List.cons_prefix_cons.mp h
      exact (List.append_nil _).symm
    | cons y before =>
      obtain ⟨rfl, hrest⟩ := List.cons_prefix_cons.mp h
      rw [ih _ hrest, hlog, List.append_assoc, List.filterMap_cons]
      cases entry c s <;> rfl

/-- One program after another makes the calls of the first and then those
of the second. -/
theorem calls_bind (answer : (c : κ) → σ → Answer c × σ)
    (p : Program Answer α) (f : α → Program Answer β) (s : σ) :
    (p >>= f).calls answer s
      = p.calls answer s
        ++ (f (p.run answer s).1).calls answer (p.run answer s).2 := by
  induction p generalizing s with
  | done a => rfl
  | call c next ih =>
    show (c, s) :: (next (answer c s).1 >>= f).calls answer _ = _
    rw [ih]
    rfl

end Program

end NtpQuery
