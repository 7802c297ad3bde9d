import NtpQuery.Proofs.Command.Calls
import NtpQuery.Proofs.Command.Consultation
import NtpQuery.Proofs.Session.Reached

/-!
# Command lines that fail early

A command line fails *early* if it does not get as far as its command: the
session is not open, the line is empty, the keyword is unknown, or the
arguments cannot be read. Such a command line leaves the client as it was,
but for one thing. An argument can be an index into the list of
associations, and an empty list is read from the server before an index is
looked up (`Coercion.Consults`). So the client may be what reading the list
once makes of it, and never more than that, whatever the arguments are
(`Session.fails_early`).
-/

namespace NtpQuery

/-- **A failure from before a command is performed.** -/
def Failure.Early : Failure → Prop
  | notOpen | missingArguments | unknownCommand _ | tooFewArguments _
  | invalidAddress _ | unknownAssociation _ _ | invalidUnsigned _
  | invalidSigned _ | invalidIpVersion _ => True
  | alreadyOpen | outOfMemory _ | busy | commandFailed _ _ => False

namespace Coercion

variable {κ : Type} [Surroundings κ] {k : κ} {e : Failure}

/-- A word that cannot be read makes a command line fail early. -/
theorem early_coerce {kind : ArgumentKind} {raw : String}
    (h : (coerce kind raw k).1 = .error e) : e.Early := by
  have hword := ofWord_of_coerce h
  cases e with
  | alreadyOpen | outOfMemory | busy | commandFailed => exact hword.elim
  | _ => trivial

/-- So does each of several words, and one that is missing. -/
theorem early_coerceAll {keyword : String} {slots : List Slot}
    {raws : List String}
    (h : (coerceAll keyword slots raws k).1 = .error e) : e.Early := by
  induction slots generalizing raws k with
  | nil => cases h
  | cons slot slots ih =>
    cases raws with
    | nil =>
      rw [coerceAll] at h
      split at h
      · obtain rfl := Except.error.inj h
        trivial
      · cases h
    | cons raw raws =>
      rw [coerceAll] at h
      rcases hfirst : coerce slot.kind raw k with ⟨f | a, next⟩
      · rw [hfirst] at h
        obtain rfl := Except.error.inj h
        exact early_coerce (congrArg Prod.fst hfirst)
      · rw [hfirst] at h
        dsimp only at h
        rcases hrest : coerceAll keyword slots raws next with ⟨f | rest, last⟩
        · rw [hrest] at h
          obtain rfl := Except.error.inj h
          exact ih (congrArg Prod.fst hrest)
        · rw [hrest] at h
          cases h

/-- **Arguments that cannot be read** make a command line fail early. -/
theorem early_invocation {keyword : String} {slots : List Slot}
    {raws : List String}
    (h : (invocation keyword slots raws k).1 = .error e) : e.Early := by
  unfold invocation at h
  rcases hread : coerceAll keyword (slots.take maxSlots) raws k with
    ⟨f | arguments, last⟩
  · rw [hread] at h
    obtain rfl := Except.error.inj h
    exact early_coerceAll (congrArg Prod.fst hread)
  · rw [hread] at h
    exact nomatch h

end Coercion

namespace Run

variable {τ ω : Type} [Transport τ] [Workspace ω]

/-- Telling of a failure in the output does not touch the client: what
reading the list for an argument makes of it is what reading the list
does. -/
theorem client_refreshForArgument (r : Run τ ω) :
    r.refreshForArgument.client
      = (r.client.refresh r.world (Workspace.scratch r.workspace)).client := by
  unfold refreshForArgument
  split
  next next heq => exact (congrArg (fun x => x.2.client) heq).symm
  next e next heq => exact (congrArg (fun x => x.2.client) heq).symm

/-- The end of a command line whose command has been performed. -/
def ofCommand (keyword : String) :
    Except ClientError Unit × Run τ ω → Except Failure Unit × Run τ ω
  | (.error e, r) => (.error (.commandFailed keyword e), r)
  | (.ok (), r) => (.ok (), r)

omit [Transport τ] [Workspace ω] in
/-- It leaves what the command has left. -/
theorem ofCommand_snd (keyword : String)
    (answer : Except ClientError Unit × Run τ ω) :
    (ofCommand keyword answer).2 = answer.2 := by
  rcases answer with ⟨_ | _, r⟩ <;> rfl

omit [Transport τ] [Workspace ω] in
/-- It fails only as a command does. -/
theorem eq_of_ofCommand_error {keyword : String}
    {answer : Except ClientError Unit × Run τ ω} {e : Failure}
    (h : (ofCommand keyword answer).1 = .error e) :
    ∃ cause, e = .commandFailed keyword cause := by
  rcases answer with ⟨cause | _, r⟩
  · exact ⟨cause, (Except.error.inj h).symm⟩
  · exact nomatch h

/-- **The two ways of a command**: its arguments cannot be read, or it is
performed from where reading them has left off. -/
theorem invoke_cases (catalogue : Tables Unit) (c : Command Handler)
    (keyword : String) (raws : List String) (r : Run τ ω) :
    (∃ e r', Coercion.invocation keyword c.slots raws r = (.error e, r')
        ∧ r.invoke catalogue c keyword raws = (.error e, r'))
      ∨ ∃ i r', Coercion.invocation keyword c.slots raws r = (.ok i, r')
        ∧ r.invoke catalogue c keyword raws
          = ofCommand c.keyword (r'.perform catalogue (c.action i)) := by
  unfold invoke
  rcases Coercion.invocation keyword c.slots raws r with ⟨e | i, r'⟩
  · exact Or.inl ⟨e, r', rfl, rfl⟩
  · refine Or.inr ⟨i, r', rfl, ?_⟩
    dsimp only
    rcases r'.perform catalogue (c.action i) with ⟨cause | _, r''⟩ <;> rfl

end Run

namespace Session

variable {τ : Type} [Transport τ]

/-- **Reading the arguments of a command line** with account kept of when
the list of associations is read. There is nothing to be read unless the
session is open and the keyword selects a command. -/
def reading (w : World) (argv : List String) (s : Session τ) :
    Option (Command Handler
      × Except Failure Invocation × Noted (Run τ Buffer)) :=
  match argv, s.buffer with
  | keyword :: raws, some buffer =>
    if s.isReady then
      (s.tables.resolve keyword).map fun c =>
        (c, Coercion.invocation keyword c.slots raws
          (Noted.mk (s.start w buffer.clear) []))
    else none
  | _, _ => none

/-- **When the list of associations is read for an argument**: the runs
just before, oldest first. -/
def consultations (w : World) (argv : List String) (s : Session τ) :
    List (Run τ Buffer) :=
  match s.reading w argv with
  | none => []
  | some (_, _, account) => account.before

/-- **Reading the arguments comes to an index** while the list of
associations is empty. -/
def Consults (w : World) (argv : List String) (s : Session τ) : Prop :=
  ∃ keyword raws buffer c, argv = keyword :: raws ∧ s.isReady = true
    ∧ s.buffer = some buffer ∧ s.tables.resolve keyword = some c
    ∧ Coercion.Consults (c.slots.take maxSlots) raws
      (s.start w buffer.clear)

section Cases

variable {s : Session τ} {w : World} {argv : List String}

/-- Where there is nothing to be read, nothing is an index. -/
theorem not_consults_of_reading_none (h : s.reading w argv = none) :
    ¬ s.Consults w argv := by
  rintro ⟨keyword, raws, buffer, c, rfl, hready, hbuffer, hresolve, -⟩
  unfold reading at h
  rw [hbuffer] at h
  dsimp only at h
  rw [if_pos hready, hresolve] at h
  exact nomatch h

/-- **A command line with nothing to be read** fails early and changes no
more than the capture buffer. -/
theorem run_of_reading_none (h : s.reading w argv = none) :
    (s.run w argv).session.client = s.client
      ∧ (s.run w argv).reentrant = []
      ∧ ∃ e, e.Early ∧ (s.run w argv).result = .error e := by
  cases hready : s.isReady with
  | false =>
    rw [run_of_not_ready hready]
    exact ⟨rfl, rfl, .notOpen, trivial, rfl⟩
  | true =>
    cases argv with
    | nil =>
      rw [run_nil hready]
      exact ⟨rfl, rfl, .missingArguments, trivial, rfl⟩
    | cons keyword raws =>
      obtain ⟨hopened, buffer, hbuffer⟩ := exists_buffer_of_ready hready
      unfold reading at h
      rw [hbuffer] at h
      dsimp only at h
      rw [if_pos hready] at h
      rw [run_cons hopened hbuffer]
      unfold Run.dispatch
      rw [Option.map_eq_none_iff.mp h]
      exact ⟨rfl, rfl, .unknownCommand keyword, trivial, rfl⟩

/-- Whether an index is come to is a matter of the words behind the
keyword. -/
theorem consults_iff {keyword : String} {raws : List String}
    {buffer : Buffer} {c : Command Handler} (hready : s.isReady = true)
    (hbuffer : s.buffer = some buffer)
    (hresolve : s.tables.resolve keyword = some c) :
    s.Consults w (keyword :: raws) ↔
      Coercion.Consults (c.slots.take maxSlots) raws
        (s.start w buffer.clear) := by
  constructor
  · rintro ⟨_, _, _, _, hargv, -, hbuffer', hresolve', h⟩
    obtain ⟨rfl, rfl⟩ := List.cons.inj hargv
    obtain rfl := Option.some.inj (hbuffer.symm.trans hbuffer')
    obtain rfl := Option.some.inj (hresolve.symm.trans hresolve')
    exact h
  · exact fun h =>
      ⟨keyword, raws, buffer, c, rfl, hready, hbuffer, hresolve, h⟩

/-- **A command line with arguments to be read** asks for the list of
associations once if it consults it, and else not at all. It fails early,
or its command is performed from there. -/
theorem run_of_reading_some {c : Command Handler}
    {read : Except Failure Invocation} {account : Noted (Run τ Buffer)}
    (h : s.reading w argv = some (c, read, account)) :
    (∃ r, r.world = w ∧ r.client = s.client
        ∧ ((s.Consults w argv ∧ account = ⟨r.refreshForArgument, [r]⟩)
          ∨ (¬ s.Consults w argv ∧ account = ⟨r, []⟩)))
      ∧ (∀ e, read = .error e → e.Early ∧ (s.run w argv).result = .error e
        ∧ (s.run w argv).session.client = account.now.client
        ∧ (s.run w argv).reentrant = account.now.reentrant)
      ∧ ∀ i, read = .ok i →
        let answer := account.now.perform (s.tables.map fun _ => ())
          (c.action i)
        (s.run w argv).result = (Run.ofCommand c.keyword answer).1
          ∧ (s.run w argv).session.client = answer.2.client
          ∧ (s.run w argv).reentrant = answer.2.reentrant := by
  unfold reading at h
  split at h
  next keyword raws buffer hbuffer =>
    split at h
    next hready =>
      obtain ⟨hopened, -⟩ := exists_buffer_of_ready hready
      obtain ⟨d, hresolve, hsame⟩ := Option.map_eq_some_iff.mp h
      obtain ⟨rfl, hread⟩ := Prod.mk.inj hsame
      obtain ⟨hresult, hnow, haccount⟩ :=
        Coercion.invocation_noted keyword d.slots raws
          (s.start w buffer.clear)
      rw [hread] at hresult hnow haccount
      refine ⟨⟨s.start w buffer.clear, rfl, rfl, ?_⟩, ?_⟩
      · rw [consults_iff hready hbuffer hresolve]
        exact haccount
      · rw [run_cons hopened hbuffer]
        unfold Run.dispatch
        rw [hresolve]
        dsimp only
        rcases Run.invoke_cases (s.tables.map fun _ => ()) d keyword raws
            (s.start w buffer.clear) with
          ⟨e, r', hinvocation, heq⟩ | ⟨i, r', hinvocation, heq⟩
        · rw [hinvocation] at hresult hnow
          obtain rfl : .error e = read := hresult
          obtain rfl : r' = account.now := hnow
          rw [heq]
          refine ⟨fun f hf => ?_, nofun⟩
          obtain rfl := Except.error.inj hf
          exact ⟨Coercion.early_invocation (congrArg Prod.fst hinvocation),
            rfl, rfl, rfl⟩
        · rw [hinvocation] at hresult hnow
          obtain rfl : .ok i = read := hresult
          obtain rfl : r' = account.now := hnow
          rw [heq]
          refine ⟨nofun, fun j hj => ?_⟩
          obtain rfl := Except.ok.inj hj
          exact ⟨rfl, congrArg Run.client (Run.ofCommand_snd _ _),
            congrArg Run.reentrant (Run.ofCommand_snd _ _)⟩
    next => exact nomatch h
  next => exact nomatch h

/-- What reading the list for an argument keeps, reading the arguments
keeps. -/
theorem keeps_reading {I : Run τ Buffer → Prop}
    (hI : ∀ r, I r → I r.refreshForArgument)
    (hstart : ∀ buffer, I (s.start w buffer)) {c : Command Handler}
    {read : Except Failure Invocation} {account : Noted (Run τ Buffer)}
    (h : s.reading w argv = some (c, read, account)) : I account.now := by
  unfold reading at h
  split at h
  next keyword raws buffer _ =>
    split at h
    next =>
      obtain ⟨d, -, hsame⟩ := Option.map_eq_some_iff.mp h
      obtain ⟨rfl, hread⟩ := Prod.mk.inj hsame
      obtain ⟨-, hnow, -⟩ := Coercion.invocation_noted keyword d.slots raws
        (s.start w buffer.clear)
      rw [hread] at hnow
      exact hnow ▸ Run.keeps_invocation hI keyword d.slots raws
        (hstart buffer.clear)
    next => exact nomatch h
  next => exact nomatch h

/-- **What reading the arguments makes of the client**: it stays as it is,
or the list of associations is read once. -/
theorem client_of_reading {c : Command Handler}
    {read : Except Failure Invocation} {account : Noted (Run τ Buffer)}
    (h : s.reading w argv = some (c, read, account)) :
    (account.before = [] → account.now.client = s.client)
      ∧ ∀ r ∈ account.before, account.now.client
        = (s.client.refresh w (Workspace.scratch r.workspace)).client := by
  obtain ⟨⟨r, hworld, hr, haccount⟩, -⟩ := run_of_reading_some h
  rcases haccount with ⟨-, heq⟩ | ⟨-, heq⟩
  · rw [heq]
    refine ⟨fun hnone => absurd hnone (List.cons_ne_nil r []),
      fun r' hr' => ?_⟩
    rw [List.mem_singleton.mp hr', Run.client_refreshForArgument, hworld, hr]
  · rw [heq]
    exact ⟨fun _ => hr, fun r' hr' => absurd hr' List.not_mem_nil⟩

end Cases

/-- **Command lines that fail early.** -/
structure FailsEarly (s : Session τ) (w : World) (argv : List String)
    (out : Bytes) : Prop where
  /-- Every failure is an early one or that of the command. -/
  failure : ∀ f, (s.execute w argv out).result = .error f →
    f.Early ∨ ∃ keyword cause, f = .commandFailed keyword cause
  /-- The list of associations is read for an argument if an index is come
  to while the list is empty, and only then. -/
  consults : s.consultations w argv ≠ [] ↔ s.Consults w argv
  /-- It is read once at most, and from the client that the session had. -/
  once : s.consultations w argv = []
    ∨ ∃ r, r.client = s.client ∧ s.consultations w argv = [r]
  /-- After an early failure the client is as it was, or as reading the list
  has left it. -/
  early : ∀ f, (s.execute w argv out).result = .error f → f.Early →
    (s.consultations w argv = []
        → (s.execute w argv out).session.client = s.client)
      ∧ ∀ r ∈ s.consultations w argv,
        (s.execute w argv out).session.client
          = (s.client.refresh w (Workspace.scratch r.workspace)).client
  /-- A command whose arguments could be read is performed from where
  reading them has left off. -/
  performed : ∀ c i account, s.reading w argv = some (c, .ok i, account) →
    (account.before = [] → account.now.client = s.client)
      ∧ (∀ r ∈ account.before, account.now.client
        = (s.client.refresh w (Workspace.scratch r.workspace)).client)
      ∧ (s.execute w argv out).session.client
        = (account.now.perform (s.tables.map fun _ => ())
          (c.action i)).2.client
  /-- The same command line from a command that is running leaves the client
  alone. -/
  busy : ∀ r : Run τ Buffer,
    (r.answerSession (.execute argv out)).2.client = r.client

/-- **Command lines that fail early leave the client as it was**, but for
reading the list of associations once. This is so in every session, whatever
its tables are, and for every command line. -/
theorem fails_early (s : Session τ) (w : World) (argv : List String)
    (out : Bytes) : s.FailsEarly w argv out := by
  have hclient : (s.execute w argv out).session.client
      = (s.run w argv).session.client := (record_frame _ _).1
  have hresult : (s.execute w argv out).result = (s.run w argv).result := rfl
  cases hreading : s.reading w argv with
  | none =>
    obtain ⟨hsame, -, g, hearly, hg⟩ := run_of_reading_none hreading
    have hnone : s.consultations w argv = [] := by
      unfold consultations
      rw [hreading]
    refine ⟨fun f hf => ?_, ?_, Or.inl hnone, fun _ _ _ => ?_, ?_,
      fun _ => rfl⟩
    · rw [hresult, hg] at hf
      exact Or.inl (Except.error.inj hf ▸ hearly)
    · exact ⟨fun h => absurd hnone h,
        fun h => absurd h (not_consults_of_reading_none hreading)⟩
    · rw [hclient, hnone]
      exact ⟨fun _ => hsame, fun r hr => absurd hr List.not_mem_nil⟩
    · intro c i account h
      rw [hreading] at h
      exact nomatch h
  | some x =>
    obtain ⟨c, read, account⟩ := x
    obtain ⟨⟨r, -, hr, haccount⟩, hfailed, hperformed⟩ :=
      run_of_reading_some hreading
    have hnow := client_of_reading hreading
    have hbefore : s.consultations w argv = account.before := by
      unfold consultations
      rw [hreading]
    refine ⟨fun f hf => ?_, ?_, ?_, fun f hf hearly => ?_, ?_,
      fun _ => rfl⟩
    · cases read with
      | error g =>
        obtain ⟨hearly, hg, -⟩ := hfailed g rfl
        rw [hresult, hg] at hf
        exact Or.inl (Except.error.inj hf ▸ hearly)
      | ok i =>
        rw [hresult, (hperformed i rfl).1] at hf
        exact Or.inr ⟨c.keyword, Run.eq_of_ofCommand_error hf⟩
    · rw [hbefore]
      rcases haccount with ⟨hconsults, heq⟩ | ⟨hconsults, heq⟩
      · rw [heq]
        exact ⟨fun _ => hconsults, fun _ => List.cons_ne_nil r []⟩
      · rw [heq]
        exact ⟨fun h => absurd rfl h, fun h => absurd h hconsults⟩
    · rw [hbefore]
      rcases haccount with ⟨-, heq⟩ | ⟨-, heq⟩
      · exact Or.inr ⟨r, hr, congrArg Noted.before heq⟩
      · exact Or.inl (congrArg Noted.before heq)
    · cases read with
      | error g =>
        rw [hbefore, hclient, (hfailed g rfl).2.2.1]
        exact hnow
      | ok i =>
        rw [hresult, (hperformed i rfl).1] at hf
        obtain ⟨cause, rfl⟩ := Run.eq_of_ofCommand_error hf
        exact hearly.elim
    · intro d i account' h
      obtain ⟨rfl, hread⟩ :=
        Prod.mk.inj (Option.some.inj (hreading.symm.trans h))
      obtain ⟨rfl, rfl⟩ := Prod.mk.inj hread
      exact ⟨hnow.1, hnow.2, hclient.trans (hperformed i rfl).2.1⟩

end Session

end NtpQuery
