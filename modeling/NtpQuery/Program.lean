/-!
# Programs over calls

A program asks its surroundings questions and goes on from the answers.
What it may ask is a type `κ` of calls; the call `c` is answered by a
value of the type `Answer c`. A program is a tree: it is done, or it
makes a call and has a continuation for every answer.

Programs make it possible to speak about *every* command or caller: what
a program does is what its calls do, whatever the program is.
`Program.run` answers the calls one after the other from a state.
-/

namespace NtpQuery

/-- **A program** whose calls `c : κ` are answered by `Answer c`, with a
result in `α`. -/
inductive Program {κ : Type} (Answer : κ → Type) (α : Type) where
  /-- The program is done. -/
  | done (value : α)
  /-- The program makes a call and goes on from the answer. -/
  | call (c : κ) (next : Answer c → Program Answer α)

namespace Program

variable {κ κ' σ : Type} {Answer : κ → Type} {Answer' : κ' → Type}
variable {α β γ : Type}

/-- One program after another. -/
def bind : Program Answer α → (α → Program Answer β) → Program Answer β
  | done a, f => f a
  | call c next, f => call c fun answer => (next answer).bind f

instance : Monad (Program Answer) where
  pure := done
  bind := bind

/-- The program that makes a single call and returns its answer. -/
def perform (c : κ) : Program Answer (Answer c) :=
  call c done

/-- **Running a program** from a state that answers its calls. -/
def run (answer : (c : κ) → σ → Answer c × σ) :
    Program Answer α → σ → α × σ
  | done a, s => (a, s)
  | call c next, s => (next (answer c s).1).run answer (answer c s).2

/-- The program with each call replaced by a program over other calls. -/
def substitute (f : (c : κ) → Program Answer' (Answer c)) :
    Program Answer α → Program Answer' α
  | done a => done a
  | call c next => (f c).bind fun answer => (next answer).substitute f

@[simp] theorem pure_eq_done (a : α) :
    (pure a : Program Answer α) = done a := rfl

@[simp] theorem done_bind (a : α) (f : α → Program Answer β) :
    done a >>= f = f a := rfl

@[simp] theorem call_bind (c : κ) (next : Answer c → Program Answer α)
    (f : α → Program Answer β) :
    call c next >>= f = call c fun answer => next answer >>= f := rfl

theorem bind_done (p : Program Answer α) : p >>= done = p := by
  induction p with
  | done => rfl
  | call c next ih => simp [ih]

theorem bind_bind (p : Program Answer α) (f : α → Program Answer β)
    (g : β → Program Answer γ) :
    p >>= f >>= g = p >>= fun a => f a >>= g := by
  induction p with
  | done => rfl
  | call c next ih => simp [ih]

instance : LawfulMonad (Program Answer) :=
  LawfulMonad.mk' _ bind_done (fun _ _ => rfl) bind_bind

/-- Running one program after another is running the first and then the
second from the state that it leaves. -/
theorem run_bind (answer : (c : κ) → σ → Answer c × σ)
    (p : Program Answer α) (f : α → Program Answer β) (s : σ) :
    (p >>= f).run answer s =
      (f (p.run answer s).1).run answer (p.run answer s).2 := by
  induction p generalizing s with
  | done => rfl
  | call c next ih => simp [run, ih]

end Program

end NtpQuery
