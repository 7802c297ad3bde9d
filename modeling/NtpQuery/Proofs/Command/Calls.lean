import NtpQuery.Proofs.Command.Coercion
import NtpQuery.Session.Run

/-!
# The calls of a routine

`Routine.Only P` says that a routine makes no calls but such that satisfy
`P`, whatever the run is in which it is performed. A routine that is put
together from others has the property if they have it, so for a command
it is read off its text.

What the calls of a routine keep, the routine keeps (`Routine.Only.keeps`),
and what all calls keep, every command line keeps, whatever its command is
(`Run.keeps_dispatch`).
-/

namespace NtpQuery

/-- A keyword selects one of the commands. -/
theorem Tables.mem_commands_of_resolve {α : Type} {t : Tables α}
    {keyword : String} {c : Command α} (h : t.resolve keyword = some c) :
    c ∈ t.commands := by
  unfold resolve at h
  split at h
  · exact absurd h (by simp)
  · cases hcore : t.core.find? (begins keyword) with
    | some d =>
      rw [hcore] at h
      obtain rfl := Option.some.inj h
      exact List.mem_append_left _ (List.mem_of_find?_eq_some hcore)
    | none =>
      rw [hcore] at h
      exact List.mem_append_right _ (List.mem_of_find?_eq_some h)

namespace Routine

variable {τ ω : Type} [Transport τ] [Workspace ω]
variable {P : CommandCall → Run τ ω → Prop} {α β : Type}

/-- **A routine that makes only calls of a kind.** -/
def Only (P : CommandCall → Run τ ω → Prop) (a : Routine α) : Prop :=
  ∀ (catalogue : Tables Unit) (r : Run τ ω),
    ∀ x ∈ Program.calls (Run.answer catalogue) a.run r, P x.1 x.2

/-- What makes only calls of a kind makes only calls of a wider kind. -/
theorem Only.mono {Q : CommandCall → Run τ ω → Prop} {a : Routine α}
    (h : Only P a) (hPQ : ∀ c r, P c r → Q c r) : Only Q a :=
  fun catalogue r x hx => hPQ x.1 x.2 (h catalogue r x hx)

theorem Only.pure (x : α) : Only P (pure x : Routine α) :=
  fun _ _ _ h => absurd h List.not_mem_nil

theorem Only.throw (e : ClientError) : Only P (throw e : Routine α) :=
  fun _ _ _ h => absurd h List.not_mem_nil

/-- **One routine after another** makes the calls of both. -/
theorem Only.bind {a : Routine α} {f : α → Routine β} (ha : Only P a)
    (hf : ∀ x, Only P (f x)) : Only P (a >>= f) := by
  intro catalogue r x hx
  rw [ExceptT.run_bind, Program.calls_bind, List.mem_append] at hx
  cases hx with
  | inl hx => exact ha catalogue r x hx
  | inr hx =>
    cases hresult : (Program.run (Run.answer catalogue) a.run r).1 with
    | ok y =>
      rw [hresult] at hx
      exact hf y catalogue _ x hx
    | error e =>
      rw [hresult] at hx
      exact absurd hx List.not_mem_nil

/-- A single call. -/
theorem Only.ask (c : CommandCall) (hc : ∀ r, P c r) :
    Only P (ask c) := by
  intro catalogue r x hx
  rw [List.mem_singleton.mp hx]
  exact hc r

theorem Only.print (hc : ∀ bytes r, P (.write bytes) r) (s : String) :
    Only P (print s) :=
  (Only.ask _ (hc _)).bind fun _ => Only.pure ()

theorem Only.printLine (hc : ∀ bytes r, P (.write bytes) r) (s : String) :
    Only P (printLine s) :=
  Only.print hc _

theorem Only.query (hc : ∀ o a d r, P (.query o a d) r) (opcode : Opcode)
    (assid : UInt16) (data : Bytes) : Only P (query opcode assid data) := by
  intro catalogue r x hx
  rw [List.mem_singleton.mp hx]
  exact hc opcode assid data r

theorem Only.refresh (hc : ∀ r, P .refresh r) : Only P refresh := by
  intro catalogue r x hx
  rw [List.mem_singleton.mp hx]
  exact hc r

theorem Only.selectHost (hc : ∀ n f r, P (.selectHost n f) r)
    (name : String) (family : AddressFamily) :
    Only P (selectHost name family) := by
  intro catalogue r x hx
  rw [List.mem_singleton.mp hx]
  exact hc name family r

/-- **A change of what the client remembers** is one reading and one
writing of it. -/
theorem Only.modify {f : Client.State → Client.State}
    (hread : ∀ r, P .state r)
    (hwrite : ∀ r : Run τ ω, P (.setState (f r.client.state)) r) :
    Only P (modify f) := by
  intro catalogue r x hx
  rcases List.mem_cons.mp hx with rfl | hx
  · exact hread r
  · rw [List.mem_singleton.mp hx]
    exact hwrite r

/-- **What every call keeps, the routine keeps.** -/
theorem Only.keeps {I : Run τ ω → Prop} {a : Routine α} (ha : Only P a)
    (hI : ∀ catalogue c r, P c r → I r → I (Run.answer catalogue c r).2)
    (catalogue : Tables Unit) {r : Run τ ω} (hr : I r) :
    I (r.perform catalogue a).2 := by
  have hrun : ∀ (p : Program CommandCall.Answer (Except ClientError α))
      (r : Run τ ω),
      (∀ x ∈ p.calls (Run.answer catalogue) r, P x.1 x.2) → I r →
      I (p.run (Run.answer catalogue) r).2 := by
    intro p
    induction p with
    | done x => exact fun _ _ hr => hr
    | call c next ih =>
      intro r hp hr
      exact ih _ _ (fun x hx => hp x (List.mem_cons_of_mem _ hx))
        (hI catalogue c r (hp (c, r) List.mem_cons_self) hr)
  exact hrun a.run r (ha catalogue r) hr

/-- **A routine for each entry of a list**, one after the other. -/
theorem Only.forM {xs : List α} {f : α → Routine Unit}
    (hf : ∀ x, Only P (f x)) : Only P (xs.forM f) := by
  induction xs with
  | nil => exact Only.pure ()
  | cons x xs ih =>
    show Only P (f x >>= fun _ => xs.forM f)
    exact (hf x).bind fun _ => ih

end Routine

namespace Run

variable {τ ω : Type} [Transport τ] [Workspace ω] {I : Run τ ω → Prop}

/-- What reading the list of associations for an argument keeps, reading
the arguments keeps. -/
theorem keeps_invocation (hI : ∀ r, I r → I r.refreshForArgument)
    (keyword : String) (slots : List Slot) (raws : List String)
    {r : Run τ ω} (hr : I r) :
    I (Coercion.invocation keyword slots raws r).2 := by
  have halike := Noted.alike (I := fun n : Noted (Run τ ω) => I n.now)
    fun n hn => hI n.now hn
  have hstart : (Noted.mk r []).now = r ∧ I (Noted.mk r []).now := ⟨rfl, hr⟩
  obtain ⟨hnow, hkept⟩ :=
    (Coercion.invocation_alike halike hstart keyword slots raws).2
  exact hnow ▸ hkept

/-- What every call keeps, reading the list of associations for an argument
keeps. -/
theorem keeps_refreshForArgument
    (hI : ∀ catalogue c r, I r → I (answer catalogue c r).2) {r : Run τ ω}
    (hr : I r) : I r.refreshForArgument := by
  have hnext : I r.refresh.2 := hI ⟨[], []⟩ .refresh r hr
  unfold refreshForArgument
  split
  next next heq =>
    rw [heq] at hnext
    exact hnext
  next e next heq =>
    rw [heq] at hnext
    exact hI ⟨[], []⟩ (.write _) next hnext

/-- **What every call keeps, a command line keeps.** -/
theorem keeps_dispatch
    (hI : ∀ catalogue c r, I r → I (answer catalogue c r).2)
    (tables : Tables Handler) (keyword : String) (raws : List String)
    {r : Run τ ω} (hr : I r) : I (dispatch tables keyword raws r).2 := by
  unfold dispatch
  cases tables.resolve keyword with
  | none => exact hr
  | some c =>
    have hread := keeps_invocation
      (fun _ h => keeps_refreshForArgument hI h) keyword c.slots raws hr
    dsimp only
    unfold invoke
    generalize Coercion.invocation keyword c.slots raws r = q at hread ⊢
    obtain ⟨_ | i, next⟩ := q
    · exact hread
    · have hany : Routine.Only (fun _ _ => True) (c.action i) :=
        fun _ (_ : Run τ ω) _ _ => trivial
      have hend := hany.keeps (I := I)
        (fun catalogue call q _ hq => hI catalogue call q hq)
        (tables.map fun _ => ()) hread
      dsimp only at hend ⊢
      generalize next.perform (tables.map fun _ => ()) (c.action i) = p
        at hend ⊢
      obtain ⟨_ | _, _⟩ := p <;> exact hend

end Run

end NtpQuery
