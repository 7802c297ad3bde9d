import NtpQuery.Proofs.Client.Alike
import NtpQuery.Proofs.Command.Coercion
import NtpQuery.Session.Run

/-!
# Runs that cannot be told apart

Two runs of a command line are alike (`Run.Alike`) if their clients are
alike, their workspaces are related, and their sessions were called in
the same way. If what is asked of both then keeps them so (`Run.Matched`),
the command line goes the same way in both to its end
(`Run.dispatch_alike`), whatever its routine does with the answers that
it gets.

One thing can tell such runs apart. The most recent failure of the two
sessions need not be the same, and a routine can ask for it. It is the
same as soon as something fails, so the exception is a routine that asks
before any of its calls on the session has failed (`Run.Asked`).
-/

namespace NtpQuery

/-- **Workspaces that answer alike** whenever they are related. -/
structure Workspace.Alike {ω ω' : Type} [Workspace ω] [Workspace ω']
    (W : ω → ω' → Prop) : Prop where
  /-- Writing is answered in the same way, and leaves them related. -/
  write : ∀ {v v'}, W v v' → ∀ bytes,
    (Workspace.write v bytes).1 = (Workspace.write v' bytes).1
      ∧ W (Workspace.write v bytes).2 (Workspace.write v' bytes).2
  /-- Their receive buffers have the same length. -/
  length_scratch : ∀ {v v'}, W v v' →
    (Workspace.scratch v').length = (Workspace.scratch v).length
  /-- Overwriting the receive buffers leaves them related. -/
  setScratch : ∀ {v v'}, W v v' → ∀ {bytes bytes' : Bytes},
    bytes.length = (Workspace.scratch v).length →
    bytes'.length = (Workspace.scratch v).length →
    W (Workspace.setScratch v bytes) (Workspace.setScratch v' bytes')

/-- **Transports and workspaces that match** whenever they are related: no
client that talks through the ones and receives into the others can be
told from its counterpart. -/
structure Run.Matched {τ τ' ω ω' : Type} [Transport τ] [Transport τ']
    [Workspace ω] [Workspace ω'] (R : τ → τ' → Prop) (W : ω → ω' → Prop) :
    Prop where
  /-- Closing leaves the transports related. -/
  close : ∀ {t t'}, R t t' → R (Transport.close t) (Transport.close t')
  /-- Writing is answered in the same way, and leaves the workspaces
  related. -/
  write : ∀ {v v'}, W v v' → ∀ bytes,
    (Workspace.write v bytes).1 = (Workspace.write v' bytes).1
      ∧ W (Workspace.write v bytes).2 (Workspace.write v' bytes).2
  /-- A query has the same outcome. -/
  query : ∀ {c c'}, Client.Alike R c c' → ∀ {v v'}, W v v' →
    ∀ w opcode assid data,
    (c.query w opcode assid data (Workspace.scratch v)).Alike R
      (Workspace.scratch v) (Workspace.scratch v')
      (c'.query w opcode assid data (Workspace.scratch v'))
  /-- Overwriting the receive buffers leaves the workspaces related. -/
  setScratch : ∀ {v v'}, W v v' → ∀ {bytes bytes' : Bytes},
    bytes.length = (Workspace.scratch v).length →
    bytes'.length = (Workspace.scratch v').length →
    W (Workspace.setScratch v bytes) (Workspace.setScratch v' bytes')

/-- What answers alike matches. -/
theorem Run.Matched.of_alike {τ τ' ω ω' : Type} [Transport τ]
    [Transport τ'] [Workspace ω] [Workspace ω'] {R : τ → τ' → Prop}
    {W : ω → ω' → Prop} (hR : Transport.Alike R) (hW : Workspace.Alike W) :
    Run.Matched R W where
  close := hR.close
  write := hW.write
  query hc _ _ hv w opcode assid data :=
    hc.query hR w opcode assid data (hW.length_scratch hv)
  setScratch hv _ _ hlen hlen' :=
    hW.setScratch hv hlen (hlen'.trans (hW.length_scratch hv))

/-- Whether one of the calls on a running session has failed. -/
def SessionCall.anyFails (calls : List Record) : Bool :=
  calls.any fun x => x.1.busyFailure.isSome

/-- **Whether the most recent failure is asked for** before one of the
calls has failed. -/
def SessionCall.asksFirst : List Record → Bool
  | [] => false
  | x :: rest =>
    x.1 = .lastError || (x.1.busyFailure.isNone && asksFirst rest)

namespace SessionCall

theorem anyFails_append (calls more : List Record) :
    anyFails (calls ++ more) = (anyFails calls || anyFails more) :=
  List.any_append ..

/-- What is asked later counts as long as nothing has failed. -/
theorem asksFirst_append (calls more : List Record) :
    asksFirst (calls ++ more)
      = (asksFirst calls || (!anyFails calls && asksFirst more)) := by
  induction calls with
  | nil => rfl
  | cons x rest ih =>
    show (_ || (_ && asksFirst (rest ++ more)))
      = ((_ || (_ && asksFirst rest)) || (!(_ || anyFails rest) && _))
    rw [ih]
    cases hx : x.1.busyFailure <;> simp [hx, Bool.or_assoc]

end SessionCall

namespace Run

variable {τ τ' ω ω' : Type}

/-- **Runs that are alike.** The most recent failure is the same if it is
`known` to be, and in any case once a call on the session has failed. -/
structure Alike (R : τ → τ' → Prop) (W : ω → ω' → Prop) (known : Bool)
    (r : Run τ ω) (r' : Run τ' ω') : Prop where
  /-- The worlds are alike. -/
  world : r.world.Alike r'.world
  /-- The clients are alike. -/
  client : r.client.Alike R r'.client
  /-- The workspaces are related. -/
  workspace : W r.workspace r'.workspace
  /-- The session was called in the same way. -/
  reentrant : r.reentrant = r'.reentrant
  /-- The most recent failure is the same. -/
  lastError : (known || SessionCall.anyFails r.reentrant) = true →
    r.lastError = r'.lastError

/-- **The routine has asked for a failure that need not be known.** -/
def Asked (known : Bool) (r : Run τ ω) : Prop :=
  known = false ∧ SessionCall.asksFirst r.reentrant = true

/-- A failure that is known may be asked for. -/
theorem not_asked_true (r : Run τ ω) : ¬ Asked true r :=
  fun h => absurd h.1 (by decide)

section Steps

variable [Transport τ] [Transport τ'] [Workspace ω] [Workspace ω']
variable {R : τ → τ' → Prop} {W : ω → ω' → Prop} {known : Bool}
variable {r : Run τ ω} {r' : Run τ' ω'}

/-- The calls of a run on its session are never forgotten. -/
theorem asked_answer (catalogue : Tables Unit) (c : CommandCall)
    (h : Asked known r) : Asked known (answer catalogue c r).2 := by
  cases c with
  | session c =>
    refine ⟨h.1, ?_⟩
    show SessionCall.asksFirst (r.reentrant ++ _) = true
    rw [SessionCall.asksFirst_append, h.2, Bool.true_or]
  | _ => exact h

namespace Alike

/-- **Writing** does the same in both. -/
theorem write (hM : Matched R W) (h : Alike R W known r r')
    (bytes : Bytes) :
    (r.write bytes).1 = (r'.write bytes).1
      ∧ Alike R W known (r.write bytes).2 (r'.write bytes).2 := by
  obtain ⟨hcount, hnext⟩ := hM.write h.workspace bytes
  exact ⟨hcount, h.world, h.client, hnext, h.reentrant, h.lastError⟩

/-- Taking over what a client operation leaves behind does the same in
both. -/
theorem conclude (hM : Matched R W) (h : Alike R W known r r')
    {α : Type} {o : Client.Outcome τ α} {o' : Client.Outcome τ' α}
    (ho : o.Alike R (Workspace.scratch r.workspace)
      (Workspace.scratch r'.workspace) o') :
    (r.conclude o).1 = (r'.conclude o').1
      ∧ Alike R W known (r.conclude o).2 (r'.conclude o').2 :=
  ⟨ho.result, h.world, ho.client,
    hM.setScratch h.workspace ho.length ho.length', h.reentrant, h.lastError⟩

/-- **Asking the server** does the same in both. -/
theorem query (hM : Matched R W) (h : Alike R W known r r')
    (opcode : Opcode) (assid : UInt16) (data : Bytes) :
    (r.query opcode assid data).1 = (r'.query opcode assid data).1
      ∧ Alike R W known (r.query opcode assid data).2
        (r'.query opcode assid data).2 := by
  have ho := hM.query h.client h.workspace r.world opcode assid data
  unfold Run.query
  rw [← Client.query_congr h.world]
  exact h.conclude hM ho

/-- **Reading the list of associations anew** does the same in both. -/
theorem refresh (hM : Matched R W) (h : Alike R W known r r') :
    r.refresh.1 = r'.refresh.1
      ∧ Alike R W known r.refresh.2 r'.refresh.2 := by
  have ho := (hM.query h.client h.workspace r.world .readStatus 0 []).refresh
  unfold Run.refresh
  rw [← Client.refresh_congr h.world]
  exact h.conclude hM ho

omit [Transport τ] [Transport τ'] [Workspace ω] [Workspace ω'] in
/-- **A call on the session** is answered in the same way, unless it asks
for a failure that need not be known. -/
theorem answerSession (h : Alike R W known r r') (c : SessionCall) :
    Asked known (r.answerSession c).2
      ∨ (r.answerSession c).1 = (r'.answerSession c).1
        ∧ Alike R W known (r.answerSession c).2 (r'.answerSession c).2 := by
  have hsame : c.answerBusy r.lastError = c.answerBusy r'.lastError →
      (r.answerSession c).1 = (r'.answerSession c).1
        ∧ Alike R W known (r.answerSession c).2 (r'.answerSession c).2 := by
    intro hanswer
    refine ⟨hanswer, h.world, h.client, h.workspace, ?_, fun hk => ?_⟩
    · show r.reentrant ++ [⟨c, c.answerBusy r.lastError⟩]
        = r'.reentrant ++ [⟨c, c.answerBusy r'.lastError⟩]
      rw [h.reentrant, hanswer]
    · -- a call that fails makes its own failure the most recent one
      show (c.busyFailure.map ErrorRecord.ofFailure).getD r.lastError
        = (c.busyFailure.map ErrorRecord.ofFailure).getD r'.lastError
      cases hfails : c.busyFailure with
      | some e => rfl
      | none =>
        refine h.lastError ?_
        have hk : (known || SessionCall.anyFails (r.reentrant
          ++ [⟨c, c.answerBusy r.lastError⟩])) = true := hk
        rw [SessionCall.anyFails_append] at hk
        simpa [SessionCall.anyFails, hfails] using hk
  cases c with
  | lastError =>
    by_cases hk : (known || SessionCall.anyFails r.reentrant) = true
    · exact Or.inr (hsame (h.lastError hk))
    · have ⟨hknown, hfails⟩ :
          known = false ∧ SessionCall.anyFails r.reentrant = false := by
        simpa using hk
      refine Or.inl ⟨hknown, ?_⟩
      show SessionCall.asksFirst (r.reentrant ++ [_]) = true
      rw [SessionCall.asksFirst_append, hfails]
      simp [SessionCall.asksFirst]
  | _ => exact Or.inr (hsame rfl)

/-- **Every call of a routine** does the same in both, with that one
exception. -/
theorem answer (hM : Matched R W) (h : Alike R W known r r')
    (catalogue : Tables Unit) (c : CommandCall) :
    Asked known (Run.answer catalogue c r).2
      ∨ (Run.answer catalogue c r).1 = (Run.answer catalogue c r').1
        ∧ Alike R W known (Run.answer catalogue c r).2
          (Run.answer catalogue c r').2 := by
  have hkeep : ∀ {d : Client τ} {d' : Client τ'}, d.Alike R d' →
      Alike R W known { r with client := d } { r' with client := d' } :=
    fun hd => ⟨h.world, hd, h.workspace, h.reentrant, h.lastError⟩
  cases c with
  | write bytes => exact Or.inr (h.write hM bytes)
  | state => exact Or.inr ⟨h.client.state, h⟩
  | setState s =>
    exact Or.inr ⟨rfl, hkeep ⟨rfl, h.client.defaults, h.client.transport⟩⟩
  | defaults => exact Or.inr ⟨h.client.defaults, h⟩
  | adopt d => exact Or.inr ⟨rfl, hkeep (h.client.adopt hM.close d)⟩
  | reset => exact Or.inr ⟨rfl, hkeep (h.client.reset hM.close)⟩
  | selectHost name family =>
    obtain ⟨heq, hnext⟩ := h.client.selectHost hM.close r.world name family
    rw [Client.selectHost_congr h.world name family r'.client] at heq hnext
    exact Or.inr ⟨heq, hkeep hnext⟩
  | query opcode assid data =>
    exact Or.inr (h.query hM opcode assid data)
  | refresh => exact Or.inr (h.refresh hM)
  | clock => exact Or.inr ⟨h.world.now, h⟩
  | catalogue => exact Or.inr ⟨rfl, h⟩
  | session c => exact h.answerSession c

end Alike

/-- **Reading arguments** cannot tell them apart. -/
theorem surroundings_alike (hM : Matched R W) :
    Surroundings.Alike
      (Alike R W known : Run τ ω → Run τ' ω' → Prop) where
  resolve h family name := h.world.resolve family name
  family h := congrArg Client.State.family h.client.state
  port h := congrArg Defaults.port h.client.defaults
  listLength h := congrArg (fun s => s.associations.length) h.client.state
  listEntry? h i :=
    congrArg (fun s => s.associations[i]?.map (·.assid)) h.client.state
  refresh {r r'} h := by
    obtain ⟨heq, hnext⟩ := h.refresh hM
    obtain ⟨result, q, q', hq, hq'⟩ := exists_of_fst_eq heq
    show Alike R W known r.refreshForArgument r'.refreshForArgument
    unfold refreshForArgument
    rw [hq, hq'] at hnext ⊢
    cases result with
    | ok _ => exact hnext
    | error e => exact (hnext.write hM _).2

/-- **Carrying out a command** does the same in both, unless its routine
asks for a failure that need not be known. -/
theorem invoke_alike (hM : Matched R W) (h : Alike R W known r r')
    (catalogue : Tables Unit) (c : Command Handler) (keyword : String)
    (raws : List String) :
    Asked known (r.invoke catalogue c keyword raws).2
      ∨ (r.invoke catalogue c keyword raws).1
          = (r'.invoke catalogue c keyword raws).1
        ∧ Alike R W known (r.invoke catalogue c keyword raws).2
          (r'.invoke catalogue c keyword raws).2 := by
  obtain ⟨heq, hnext⟩ := Coercion.invocation_alike
    (surroundings_alike hM) h keyword c.slots raws
  obtain ⟨result, q, q', hq, hq'⟩ := exists_of_fst_eq heq
  unfold invoke
  rw [hq, hq'] at hnext ⊢
  cases result with
  | error e => exact Or.inr ⟨rfl, hnext⟩
  | ok i =>
    dsimp only at hnext ⊢
    have hrun := Program.run_related_unless
      (fun call _ hasked => asked_answer catalogue call hasked)
      (fun call _ _ hrel => hrel.answer hM catalogue call)
      (c.action i).run hnext
    unfold perform
    rcases hrun with hasked | ⟨heq, hend⟩
    · refine Or.inl ?_
      generalize Program.run (answer catalogue) (c.action i).run q = p
        at hasked ⊢
      obtain ⟨_ | _, _⟩ := p <;> exact hasked
    · obtain ⟨result, p, p', hp, hp'⟩ := exists_of_fst_eq heq
      rw [hp, hp'] at hend ⊢
      cases result with
      | error e => exact Or.inr ⟨rfl, hend⟩
      | ok _ => exact Or.inr ⟨rfl, hend⟩

/-- **Carrying out a command line** does the same in both, with that one
exception. -/
theorem dispatch_alike (hM : Matched R W) (h : Alike R W known r r')
    (tables : Tables Handler) (keyword : String) (raws : List String) :
    Asked known (dispatch tables keyword raws r).2
      ∨ (dispatch tables keyword raws r).1
          = (dispatch tables keyword raws r').1
        ∧ Alike R W known (dispatch tables keyword raws r).2
          (dispatch tables keyword raws r').2 := by
  unfold dispatch
  cases tables.resolve keyword with
  | none => exact Or.inr ⟨rfl, h⟩
  | some c => exact invoke_alike hM h _ c keyword raws

/-- Where the most recent failure is known, there is no exception. -/
theorem dispatch_alike_of_known (hM : Matched R W)
    (h : Alike R W true r r') (tables : Tables Handler) (keyword : String)
    (raws : List String) :
    (dispatch tables keyword raws r).1 = (dispatch tables keyword raws r').1
      ∧ Alike R W true (dispatch tables keyword raws r).2
        (dispatch tables keyword raws r').2 :=
  (dispatch_alike hM h tables keyword raws).resolve_left
    (not_asked_true _)

end Steps

end Run

end NtpQuery
