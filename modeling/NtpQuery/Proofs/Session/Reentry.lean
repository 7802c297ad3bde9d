import NtpQuery.Proofs.Command.Calls
import NtpQuery.Proofs.Command.Resolution
import NtpQuery.Proofs.Session.Lending
import NtpQuery.Proofs.Session.Lifecycle

/-!
# Commands that turn to their session

A command may carry out operations on the session that is running it. It
finds the session ready and can ask for the most recent failure. Whatever
else it tries is refused: the parts that it would need are lent to the
command itself, and each operation looks for something that is missing or
lent before it changes anything.

So such calls, however many and wherever in the run of the command, leave
everything but the record of the most recent failure as it is. If the
command does not heed what they return, it may as well not make them
(`Session.reentry_changes_nothing`).

Not every refusal is for being busy. That a session is open is looked at
before anything that is lent, and so is a command line that is empty
(`Session.reentry_fails`).
-/

namespace NtpQuery

namespace SessionCall

/-- **An operation that does something** to the session, unless it is
refused. -/
def Acts : SessionCall → Prop
  | isReady | lastError => False
  | create _ | destroy | configure _ | execute _ _ => True

/-- **What a command is told by the session that is running it**: that the
session is ready, and a failure of whatever else returns a result. Into a
buffer that the command has lent for output, zeros are written. -/
def Rebuffed : (c : SessionCall) → c.Answer → Prop
  | isReady, ready => ready = true
  | lastError, _ => True
  | create _, result => ∃ f, result = .error f
  | destroy, _ => True
  | configure _, result => ∃ f, result = .error f
  | execute _ out, answer =>
    (∃ f, answer.1 = .error f) ∧ answer.2 = Bytes.zeros out.length

/-- A busy session answers in this way. -/
theorem rebuffed_answerBusy (last : ErrorRecord) (c : SessionCall) :
    c.Rebuffed (c.answerBusy last) := by
  cases c with
  | isReady => exact rfl
  | lastError => trivial
  | create capacity => exact ⟨.alreadyOpen, rfl⟩
  | destroy => trivial
  | configure d => exact ⟨.busy, rfl⟩
  | execute argv out => exact ⟨⟨_, rfl⟩, rfl⟩

/-- It refuses whatever would do something. -/
theorem exists_busyFailure {c : SessionCall} (h : c.Acts) :
    ∃ f, c.busyFailure = some f := by
  cases c with
  | isReady => exact h.elim
  | lastError => exact h.elim
  | execute argv out => cases argv <;> exact ⟨_, rfl⟩
  | _ => exact ⟨_, rfl⟩

end SessionCall

/-! ## Calls on the session, wherever they are made -/

namespace Run

variable {τ ω : Type} {r after : Run τ ω}

/-- **A run that calls on the session have not moved.** They are noted, and
the most recent failure may be another one. -/
structure Unmoved (r after : Run τ ω) : Prop where
  /-- The world is the same. -/
  world : after.world = r.world
  /-- The client is the same, with its settings, its defaults and its
  transport. -/
  client : after.client = r.client
  /-- The workspace is the same, with what has been captured so far. -/
  workspace : after.workspace = r.workspace
  /-- Every call that was made has been rebuffed. -/
  reentrant : ∃ calls, after.reentrant = r.reentrant ++ calls
    ∧ ∀ x ∈ calls, x.1.Rebuffed x.2

/-- One call does not move the run. -/
theorem unmoved_answerSession (r : Run τ ω) (c : SessionCall) :
    r.Unmoved (r.answerSession c).2 := by
  refine ⟨rfl, rfl, rfl, [⟨c, c.answerBusy r.lastError⟩], rfl,
    fun x hx => ?_⟩
  rw [List.mem_singleton.mp hx]
  exact c.rebuffed_answerBusy r.lastError

/-- Neither do any number of them, each chosen in the light of what the
ones before have returned. -/
theorem unmoved_run {α : Type} (p : SessionProgram α) (r : Run τ ω) :
    r.Unmoved (p.run (fun c r => r.answerSession c) r).2 := by
  induction p generalizing r with
  | done a =>
    exact ⟨rfl, rfl, rfl, [], (List.append_nil _).symm,
      fun x hx => absurd hx List.not_mem_nil⟩
  | call c next ih =>
    obtain ⟨hworld, hclient, hworkspace, first, hfirst, hrebuffed⟩ :=
      r.unmoved_answerSession c
    obtain ⟨hworld', hclient', hworkspace', rest, hrest, hrebuffed'⟩ :=
      ih (r.answerSession c).1 (r.answerSession c).2
    refine ⟨hworld'.trans hworld, hclient'.trans hclient,
      hworkspace'.trans hworkspace, first ++ rest, ?_, fun x hx => ?_⟩
    · rw [← List.append_assoc, ← hfirst]
      exact hrest
    · exact (List.mem_append.mp hx).elim (hrebuffed x) (hrebuffed' x)

/-- **What every call on the session keeps**, of the calls that were made and
of the most recent failure, every call of a routine keeps. -/
theorem keeps_answer [Transport τ] [Workspace ω]
    {I : List SessionCall.Record → ErrorRecord → Prop}
    (hI : ∀ calls last (c : SessionCall), I calls last →
      I (calls ++ [⟨c, c.answerBusy last⟩])
        ((c.busyFailure.map ErrorRecord.ofFailure).getD last))
    (catalogue : Tables Unit) (c : CommandCall)
    (hr : I r.reentrant r.lastError) :
    I (answer catalogue c r).2.reentrant
      (answer catalogue c r).2.lastError := by
  cases c with
  | session c => exact hI _ _ c hr
  | _ => exact hr

/-- **A routine that makes calls on its session** gets the answers that its
run has for them. -/
theorem perform_onSession [Transport τ] [Workspace ω] {α : Type}
    (catalogue : Tables Unit) (p : SessionProgram α) (r : Run τ ω) :
    r.perform catalogue (Routine.onSession p)
      = (.ok (p.run (fun c r => r.answerSession c) r).1,
        (p.run (fun c r => r.answerSession c) r).2) := by
  have hrun : (Routine.onSession p).run
      = p.substitute (fun c => Program.perform (.session c))
        >>= fun a => Program.done (.ok a) := by
    unfold Routine.onSession ExceptT.lift
    rw [ExceptT.run_mk, map_eq_pure_bind]
    rfl
  have hanswers := Program.run_substitute (answer catalogue)
    (fun c : SessionCall => Program.perform (CommandCall.session c)) p r
  unfold perform
  rw [hrun, Program.run_bind]
  exact congrArg (fun x => (Except.ok x.1, x.2)) hanswers

end Run

/-- **Operations on a session that is running a command**, one after the
other, are answered as the command sees it. -/
theorem Guarded.run_running {τ α : Type} [Transport τ]
    {tables : Tables Handler} (w : World) (p : SessionProgram α)
    (r : Run τ Buffer) :
    p.run (Guarded.answer w) (.running tables r)
      = ((p.run (fun c r => r.answerSession c) r).1,
        .running tables (p.run (fun c r => r.answerSession c) r).2) := by
  induction p generalizing r with
  | done a => rfl
  | call c next ih =>
    unfold Program.run
    rw [Guarded.answer_running]
    exact ih _ _

/-! ## The same command without its calls -/

/-- A guess at the answer of a call on the session. -/
def CommandCall.guess : (c : CommandCall) → Option c.Answer
  | .session c => some (c.answerBusy .initial)
  | _ => none

namespace Routine

variable {α : Type}

/-- **A routine that does not heed its session**: whatever its calls on the
session return, it goes on in the same way. -/
def Heedless (a : Routine α) : Prop :=
  Program.Heedless CommandCall.guess a.run

/-- **The routine without its calls on the session.** -/
def silent (a : Routine α) : Routine α :=
  ExceptT.mk (Program.without CommandCall.guess a.run)

end Routine

/-- A handler whose routines do not heed their session. -/
def Handler.Heedless (h : Handler) : Prop :=
  ∀ i, Routine.Heedless (h i)

/-- The handler without calls on the session. -/
def Handler.silent (h : Handler) : Handler :=
  fun i => Routine.silent (h i)

namespace Run

variable {τ ω : Type}

/-- The run as it would be if no call had been made on the session. -/
def hush (first : ErrorRecord) (r : Run τ ω) : Run τ ω :=
  { r with lastError := first, reentrant := [] }

variable [Transport τ] [Workspace ω] {first : ErrorRecord}

/-- **A call that is not on the session** does the same in both. -/
theorem answer_hush (catalogue : Tables Unit) {c : CommandCall}
    (hc : c.guess = none) (r : Run τ ω) :
    answer catalogue c (r.hush first)
      = ((answer catalogue c r).1, (answer catalogue c r).2.hush first) := by
  cases c with
  | session c => exact nomatch hc
  | _ => rfl

/-- Reading arguments does. -/
theorem alike_hush (first : ErrorRecord) :
    Surroundings.Alike fun r r' : Run τ ω => r' = r.hush first where
  resolve h family name := by subst h; rfl
  family h := by subst h; rfl
  port h := by subst h; rfl
  listLength h := by subst h; rfl
  listEntry? h i := by subst h; rfl
  refresh {r r'} h := by
    subst h
    show (r.hush first).refreshForArgument
      = r.refreshForArgument.hush first
    have hrefresh : (r.hush first).refresh
        = (r.refresh.1, r.refresh.2.hush first) := rfl
    unfold refreshForArgument
    rw [hrefresh]
    rcases r.refresh with ⟨_ | _, _⟩ <;> rfl

/-- **A routine that does not heed its session** does the same without its
calls. -/
theorem perform_silent {α : Type} {a : Routine α} (ha : a.Heedless)
    (catalogue : Tables Unit) (first : ErrorRecord) (r : Run τ ω) :
    (r.hush first).perform catalogue a.silent
      = ((r.perform catalogue a).1,
        (r.perform catalogue a).2.hush first) := by
  have hskip : ∀ (c : CommandCall) (r r' : Run τ ω),
      (c.guess).isSome = true → r' = r.hush first →
      r' = (answer catalogue c r).2.hush first := by
    intro c r r' hc h
    cases c with
    | session c => exact h
    | _ => exact nomatch hc
  have hcall : ∀ (c : CommandCall) (r r' : Run τ ω),
      c.guess = none → r' = r.hush first →
      (answer catalogue c r).1 = (answer catalogue c r').1
        ∧ (answer catalogue c r').2 = (answer catalogue c r).2.hush first := by
    intro c r r' hc h
    rw [h, answer_hush catalogue hc]
    exact ⟨rfl, rfl⟩
  obtain ⟨hresult, hend⟩ := Program.run_without
    (R := fun r r' : Run τ ω => r' = r.hush first) hskip hcall ha
    (show r.hush first = r.hush first from rfl)
  exact Prod.ext hresult.symm hend

/-- **A command line** does the same without the calls of its command, if
the command does not heed them. -/
theorem dispatch_silent {tables : Tables Handler} {keyword : String}
    (hheedless : ∀ c, tables.resolve keyword = some c → c.action.Heedless)
    (raws : List String) (first : ErrorRecord) (r : Run τ ω) :
    dispatch (tables.map Handler.silent) keyword raws (r.hush first)
      = ((dispatch tables keyword raws r).1,
        (dispatch tables keyword raws r).2.hush first) := by
  have hcatalogue : (tables.map Handler.silent).map (fun _ => ())
      = tables.map fun _ => () := by
    unfold Tables.map
    dsimp only
    rw [List.map_map, List.map_map]
    rfl
  unfold dispatch
  rw [Tables.resolve_map, hcatalogue]
  cases hresolve : tables.resolve keyword with
  | none => rfl
  | some c =>
    obtain ⟨heq, hnext⟩ := Coercion.invocation_alike (alike_hush first)
      (show r.hush first = r.hush first from rfl) keyword c.slots raws
    obtain ⟨result, q, q', hq, hq'⟩ := exists_of_fst_eq heq
    dsimp only [Option.map_some, Command.map]
    unfold invoke
    rw [hq, hq'] at hnext
    obtain rfl : q' = q.hush first := hnext
    rw [hq, hq']
    cases result with
    | error e => rfl
    | ok i =>
      have hsilent := perform_silent (hheedless c hresolve i)
        (tables.map fun _ => ()) first q
      dsimp only
      unfold Handler.silent
      rw [hsilent]
      rcases q.perform (tables.map fun _ => ()) (c.action i) with
        ⟨_ | _, _⟩ <;> rfl

end Run

namespace Session

variable {τ : Type} [Transport τ]

omit [Transport τ] in
/-- **The session with commands that leave it alone.** -/
def silenced (s : Session τ) : Session τ :=
  { s with tables := s.tables.map Handler.silent }

/-- **A command line of a command that does not heed its session** is the
same without the calls. -/
theorem run_silenced {s : Session τ} {argv : List String}
    (hheedless : ∀ keyword raws c, argv = keyword :: raws →
      s.tables.resolve keyword = some c → c.action.Heedless)
    (w : World) :
    let e := s.run w argv
    let e' := s.silenced.run w argv
    e'.result = e.result ∧ e'.output = e.output ∧ e'.reentrant = []
      ∧ e'.session = { e.session with
        lastError := s.lastError
        tables := s.tables.map Handler.silent } := by
  rcases s.run_cases w argv with
    ⟨e, hnone⟩ | ⟨keyword, raws, buffer, rfl, hopened, hbuffer⟩
  · rw [hnone s rfl, hnone s.silenced rfl]
    exact ⟨rfl, rfl, rfl, rfl⟩
  · have hdispatch := Run.dispatch_silent
      (fun c => hheedless keyword raws c rfl) raws s.lastError
      (s.start w buffer.clear)
    rw [run_cons hopened hbuffer,
      run_cons (show s.silenced.opened = true from hopened)
        (show s.silenced.buffer = some buffer from hbuffer),
      show s.silenced.tables = s.tables.map Handler.silent from rfl,
      show s.silenced.start w buffer.clear
        = (s.start w buffer.clear).hush s.lastError from rfl, hdispatch]
    exact ⟨rfl, rfl, rfl, rfl⟩

/-- **What every call of a command on its session keeps** holds when the
command line has ended, of the calls that were made and of the most recent
failure. -/
theorem keeps_run {I : List SessionCall.Record → ErrorRecord → Prop}
    {s : Session τ}
    (hI : ∀ calls last (c : SessionCall), I calls last →
      I (calls ++ [⟨c, c.answerBusy last⟩])
        ((c.busyFailure.map ErrorRecord.ofFailure).getD last))
    (hstart : I [] s.lastError) (w : World) (argv : List String) :
    I (s.run w argv).reentrant (s.run w argv).session.lastError := by
  rcases s.run_cases w argv with
    ⟨e, hnone⟩ | ⟨keyword, raws, buffer, rfl, hopened, hbuffer⟩
  · rw [hnone s rfl]
    exact hstart
  · rw [run_cons hopened hbuffer]
    exact Run.keeps_dispatch
      (I := fun r : Run τ Buffer => I r.reentrant r.lastError)
      (fun catalogue c r hr => Run.keeps_answer hI catalogue c hr)
      s.tables keyword raws hstart

/-- **Every call of a command on its session is rebuffed.** -/
theorem rebuffed_run (s : Session τ) (w : World) (argv : List String) :
    ∀ x ∈ (s.run w argv).reentrant, x.1.Rebuffed x.2 := by
  refine keeps_run (I := fun calls _ => ∀ x ∈ calls, x.1.Rebuffed x.2)
    (fun calls last c h x hx => ?_)
    (fun x hx => absurd hx List.not_mem_nil) w argv
  rcases List.mem_append.mp hx with hx | hx
  · exact h x hx
  · rw [List.mem_singleton.mp hx]
    exact c.rebuffed_answerBusy last

/-- **Calls of a command on its session change nothing.** Wherever the run
of a command is, and whatever operations it then carries out on its session,
each chosen in the light of what the ones before have returned: the session
answers them as its operations go while the buffer and the client are lent,
and stays as it is but for the record of failures; the run is not moved; the
session is found to be ready, and whatever would do something fails. So
every call that comes up in a command line is rebuffed. And if the command
does not heed its session, the command line has the same result and output,
and leaves the same session but for the most recent failure, as without the
calls. -/
theorem reentry_changes_nothing (s : Session τ) (w : World) :
    (∀ {α : Type} (catalogue : Tables Unit) (r : Run τ Buffer)
        (p : SessionProgram α),
      let answer := p.run (Guarded.answer w) (.running s.tables r)
      ∃ after, r.perform catalogue (Routine.onSession p)
          = (.ok answer.1, after)
        ∧ answer.2 = .running s.tables after ∧ r.Unmoved after)
      ∧ (∀ (r : Run τ Buffer) (c : SessionCall), c.Acts →
        ∃ f, (Guarded.running s.tables r).failure? w c = some f)
      ∧ ∀ (argv : List String) (out : Bytes),
        let e := s.execute w argv out
        (∀ x ∈ e.reentrant, x.1.Rebuffed x.2)
          ∧ ((∀ keyword raws c, argv = keyword :: raws →
              s.tables.resolve keyword = some c → c.action.Heedless) →
            let e' := s.silenced.execute w argv out
            e'.result = e.result ∧ e'.output = e.output ∧ e'.reentrant = []
              ∧ e.session = { e'.session with
                lastError := e.session.lastError
                tables := s.tables }) := by
  refine ⟨fun catalogue r p => ?_, fun r c hc => ?_, fun argv out => ?_⟩
  · rw [Guarded.run_running]
    exact ⟨_, Run.perform_onSession catalogue p r, rfl,
      Run.unmoved_run p r⟩
  · rw [Guarded.failure?_running]
    exact SessionCall.exists_busyFailure hc
  · refine ⟨rebuffed_run s w argv, fun hheedless => ?_⟩
    obtain ⟨hresult, houtput, hreentrant, hsession⟩ :=
      run_silenced hheedless w
    refine ⟨hresult, congrArg (fill _) houtput, hreentrant, ?_⟩
    show (s.run w argv).session.record (s.run w argv).result
      = { (s.silenced.run w argv).session.record
            (s.silenced.run w argv).result with
          lastError := ((s.run w argv).session.record
            (s.run w argv).result).lastError
          tables := s.tables }
    rw [hresult, hsession, ← (run_frame s w argv).2]
    cases (s.run w argv).result <;> rfl

end Session

/-- **A command that tries operations on its session**, between two lines of
output, and does not look at what they return. -/
def Command.restless (calls : List SessionCall) : Command Handler where
  keyword := "restless"
  slots := []
  usage := ""
  comment := "try operations on the session"
  action _ := do
    Routine.printLine "before"
    calls.forM fun c => do
      let _ ← Routine.ask (.session c)
    Routine.printLine "after"

/-- It does not heed its session, whatever the operations are. -/
theorem Command.heedless_restless (calls : List SessionCall) :
    (restless calls).action.Heedless := by
  have hrest : Routine.Heedless (do
      calls.forM fun c => do
        let _ ← Routine.ask (.session c)
      Routine.printLine "after") := by
    induction calls with
    | nil => exact ⟨fun _ => trivial, fun _ h => nomatch h⟩
    | cons c rest ih => exact ⟨fun _ => ih, fun _ _ _ => rfl⟩
  exact fun _ => ⟨fun _ => hrest, fun _ h => nomatch h⟩

namespace Session

variable {τ : Type} [Transport τ]

/-- A command that tries each of the operations on its session writes both
of its lines, and leaves a failure on record that would not be there
otherwise. -/
theorem reentry_changes_nothing_restless :
    let w : World := ⟨0, fun _ => [], .files 8, fun _ => true⟩
    let calls : List SessionCall := [.isReady, .create 8, .configure {},
      .execute ["restless"] [7, 7], .lastError, .destroy]
    let closed : Session (Exchange Script) :=
      .new {} ⟨⟨[]⟩, []⟩ ⟨[.restless calls], []⟩
    let s := (closed.create w 64).2
    let e := s.execute w ["restless"] (Bytes.zeros 16)
    let e' := s.silenced.execute w ["restless"] (Bytes.zeros 16)
    e.result = .ok () ∧ e.output = e'.output
      ∧ e.output = Text.utf8 "before\nafter\n" ++ Bytes.zeros 3
      ∧ e.session.client = e'.session.client
      ∧ e.session.lastError = .ofFailure .busy
      ∧ e'.session.lastError = .initial := by
  intro w calls closed s e e'
  have htables : s.tables = ⟨[.restless calls], []⟩ :=
    tables_perform closed (.call w (.create 64))
  obtain ⟨-, -, hsame⟩ := reentry_changes_nothing s w
  obtain ⟨hresult, houtput, -, hsession⟩ :=
    (hsame ["restless"] (Bytes.zeros 16)).2 fun keyword raws c _ hc => by
      have hmem := Tables.mem_commands_of_resolve hc
      rw [htables] at hmem
      rw [List.mem_singleton.mp hmem]
      exact Command.heedless_restless calls
  have hok : e'.result = .ok () := by
    cases hfails : e'.result with
    | ok _ => rfl
    | error f =>
      have hnone : Failure.of? e'.result = none := by decide +kernel
      rw [hfails] at hnone
      exact nomatch hnone
  have hclient : e.session.client = e'.session.client :=
    (congrArg Session.client hsession :)
  exact ⟨hresult.symm.trans hok, houtput.symm, by decide +kernel, hclient,
    by decide +kernel, by decide +kernel⟩

/-- **How an operation that a command tries on its session fails.** At any
point of its run, the session is said to be busy exactly if the operation is
to close the session, to configure it, or to execute a command line that is
not empty. Creating fails because the session is open, and an empty command
line because it is empty, although the session is busy all the same. In any
case the command is told so, unless it tried to close the session, and the
failure is the most recent one from then on. -/
theorem reentry_fails (tables : Tables Handler) (r : Run τ Buffer)
    (w : World) (c : SessionCall) :
    let failure? := (Guarded.running tables r).failure? w
    (failure? c = some .busy ↔ c.Acts ∧ (∀ n, c ≠ .create n)
        ∧ ∀ out, c ≠ .execute [] out)
      ∧ (∀ n, failure? (.create n) = some .alreadyOpen)
      ∧ (∀ out, failure? (.execute [] out) = some .missingArguments)
      ∧ (c ≠ .destroy → c.told (r.answerSession c).1 = failure? c)
      ∧ ∀ f, failure? c = some f →
        (r.answerSession c).2.lastError = .ofFailure f := by
  intro failure?
  have hrunning : (Guarded.running tables r).answer w c = _ :=
    Guarded.answer_running w c
  refine ⟨?_, fun n => rfl, fun out => rfl, fun hc => ?_, fun f hf => ?_⟩
  · rw [show failure? c = c.busyFailure from
      Guarded.failure?_running w c]
    cases c with
    | execute argv out =>
      cases argv <;> simp [SessionCall.busyFailure, SessionCall.Acts]
    | _ => simp [SessionCall.busyFailure, SessionCall.Acts]
  · have htold := Guarded.told_answer w hc (Guarded.running tables r)
    rwa [hrunning] at htold
  · rw [← Guarded.lastError_of_failure hf, hrunning]
    rfl

/-- A command that tries to create its session and to execute an empty
command line in it never hears that the session is busy. -/
theorem reentry_fails_restless :
    let w : World := ⟨0, fun _ => [], .files 8, fun _ => true⟩
    let calls : List SessionCall := [.create 8, .execute [] [0, 0, 0, 0]]
    let closed : Session (Exchange Script) :=
      .new {} ⟨⟨[]⟩, []⟩ ⟨[.restless calls], []⟩
    let e := (closed.create w 64).2.execute w ["restless"] []
    e.reentrant.map Sigma.fst = calls
      ∧ e.reentrant.map (fun x => x.1.told x.2)
        = [some .alreadyOpen, some .missingArguments]
      ∧ e.session.lastError ≠ .ofFailure .busy := by
  decide +kernel

end Session

end NtpQuery
