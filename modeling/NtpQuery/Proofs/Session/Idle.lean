import NtpQuery.Proofs.Command.Idle
import NtpQuery.Proofs.Session.Frame
import NtpQuery.Proofs.Session.Twin

/-!
# Idle command lines make no difference

The settings that are only kept can be left out of a history: if all idle
command lines are taken out of it, every other command line has the same
result and the same output, and the transport has the same on record, each
datagram that was sent and each wait (`Session.kept_settings_invisible`).

Two things carry this. A step that is not idle does the same if the settings
that are only kept are forgotten before it (`Session.forget_perform`). And
an idle step leaves a session that, but for these settings, is a twin of
what it was (`Session.near_of_isIdle`). It is not the same, since an idle
command line may fail, which the session remembers, and it clears the
capture buffer.
-/

namespace NtpQuery

variable {τ : Type}

namespace Session

/-- **The session without the settings that are only kept.** -/
def forget (s : Session τ) : Session τ :=
  { s with client := s.client.forget }

/-- What comes of a command line, but for these settings. -/
def Execution.forget (e : Execution τ) : Execution τ :=
  { e with session := e.session.forget }

/-- **An idle step**: an idle command line is executed. -/
def Step.isIdle : Step τ → Bool
  | .call _ (.execute argv _) => Standard.isIdle argv
  | _ => false

/-! ## Steps that are not idle -/

section Blind

variable [Transport τ] {s : Session τ}

omit [Transport τ] in
/-- Recording how an operation ends. -/
theorem forget_record {α : Type} (s : Session τ)
    (result : Except Failure α) :
    s.forget.record result = (s.record result).forget := by
  cases result <;> rfl

/-- **A command line that is not idle** goes the same way without the
settings that are only kept. -/
theorem forget_run (htables : s.tables = Standard.tables)
    {argv : List String} (hidle : Standard.isIdle argv = false)
    (w : World) : (s.forget.run w argv).forget = (s.run w argv).forget := by
  rcases s.run_cases w argv with
    ⟨e, hnone⟩ | ⟨keyword, raws, buffer, rfl, hopened, hbuffer⟩
  · rw [hnone s rfl, hnone s.forget rfl]
    rfl
  · have hstart : (s.forget.start w buffer.clear).forget
        = (s.start w buffer.clear).forget := rfl
    obtain ⟨hresult, hend⟩ := Run.dispatch_forget hidle hstart
    rw [run_cons hopened hbuffer,
      run_cons (s := s.forget) hopened hbuffer,
      show s.forget.tables = s.tables from rfl, htables]
    generalize Run.dispatch Standard.tables keyword raws
      (s.forget.start w buffer.clear) = p at hresult hend ⊢
    generalize Run.dispatch Standard.tables keyword raws
      (s.start w buffer.clear) = p' at hresult hend ⊢
    obtain ⟨result, r⟩ := p
    obtain ⟨result', r'⟩ := p'
    obtain rfl : result = result' := hresult
    -- of a run without these settings all that is read off it is left
    exact congrArg (fun r : Run τ Buffer =>
      Execution.mk result r.workspace.contents r.reentrant { s with
        client := r.client
        buffer := some r.workspace
        lastError := r.lastError
        tables := Standard.tables }) hend

/-- So does executing it. -/
theorem forget_execute (htables : s.tables = Standard.tables)
    {argv : List String} (hidle : Standard.isIdle argv = false)
    (w : World) (out : Bytes) :
    (s.forget.execute w argv out).forget
      = (s.execute w argv out).forget := by
  have hexecute : ∀ s : Session τ, (s.execute w argv out).forget
      = { (s.run w argv).forget with
        output := fill out.length (s.run w argv).forget.output
        session := (s.run w argv).forget.session.record
          (s.run w argv).forget.result } := by
    intro s
    unfold execute Execution.forget
    rw [forget_record]
  rw [hexecute, hexecute, forget_run htables hidle]

/-- **Every step that is not idle** leaves the same without these settings,
but for them. -/
theorem forget_perform (htables : s.tables = Standard.tables)
    {step : Step τ} (hidle : step.isIdle = false) :
    (s.forget.perform step).forget = (s.perform step).forget := by
  have hopened' : s.forget.opened = s.opened := rfl
  cases step with
  | incident change =>
    cases hopened : s.opened with
    | true =>
      rw [incident_of_opened hopened,
        incident_of_opened (hopened'.trans hopened)]
      rfl
    | false =>
      rw [incident_of_closed hopened,
        incident_of_closed (hopened'.trans hopened)]
      rfl
  | call w c =>
    cases c with
    | isReady => rfl
    | lastError => rfl
    | configure d => rfl
    | destroy =>
      show s.forget.destroy.forget = s.destroy.forget
      cases hopened : s.opened with
      | true =>
        rw [destroy_of_opened hopened,
          destroy_of_opened (hopened'.trans hopened)]
        rfl
      | false =>
        rw [destroy_of_closed hopened,
          destroy_of_closed (hopened'.trans hopened)]
        rfl
    | create n =>
      show (s.forget.create w n).2.forget = (s.create w n).2.forget
      unfold create
      rw [hopened']
      split
      · rfl
      · split
        · rfl
        · rfl
    | execute argv out =>
      exact congrArg Execution.session (forget_execute htables hidle w out)

end Blind

/-! ## Idle steps -/

section Near

/-- **Sessions that are near**: without the settings that are only kept
they are twins. What they remember as their most recent failure may
differ, and so may what their capture buffers hold. -/
def Near (s s' : Session τ) : Prop :=
  Twin Eq false s.forget s'.forget

/-- A session is near itself. -/
theorem near_refl {s : Session τ} (hs : s.Coherent) : Near s s :=
  ⟨⟨hs.congr rfl rfl, hs.congr rfl rfl, .refl _, rfl, rfl, fun _ => rfl⟩,
    rfl⟩

/-- Twins are near. -/
theorem Twin.near {known : Bool} {s s' : Session τ}
    (h : Twin Eq known s s') : Near s s' := by
  have hclient : s.forget.client = s'.forget.client :=
    congrArg Client.forget h.alike.client.eq
  exact ⟨⟨h.alike.coherent.congr rfl rfl, h.alike.coherent'.congr rfl rfl,
    hclient ▸ .refl _, h.alike.tables, h.alike.scratch,
    fun hk => nomatch hk⟩, h.capacity⟩

namespace Near

variable {s s' s'' : Session τ}

/-- What is near to something near is near. -/
theorem trans (h : Near s s') (h' : Near s' s'') : Near s s'' := by
  have hclient : s.forget.client = s''.forget.client :=
    h.alike.client.eq.trans h'.alike.client.eq
  exact ⟨⟨h.alike.coherent, h'.alike.coherent', hclient ▸ .refl _,
    h.alike.tables.trans h'.alike.tables,
    h.alike.scratch.trans h'.alike.scratch, fun hk => nomatch hk⟩,
    h.capacity.trans h'.capacity⟩

/-- Only what is left when these settings are forgotten matters. -/
theorem congr {r r' : Session τ} (h : Near s s') (hr : r.forget = s.forget)
    (hr' : r'.forget = s'.forget) : Near r r' := by
  unfold Near
  rw [hr, hr']
  exact h

/-- **Near sessions have the same client** but for these settings. -/
theorem sameButKept (h : Near s s') : s.client.SameButKept s'.client :=
  Client.sameButKept_of_forget h.alike.client.eq

variable [Transport τ]

/-- **A command line that is not idle** is answered in the same way by
near sessions. -/
theorem execute (h : Near s s') (htables : s.tables = Standard.tables)
    {argv : List String} (hidle : Standard.isIdle argv = false)
    (w : World) (out : Bytes) :
    (s.execute w argv out).result = (s'.execute w argv out).result
      ∧ (s.execute w argv out).output = (s'.execute w argv out).output := by
  have htables' : s'.tables = Standard.tables :=
    h.alike.tables.symm.trans htables
  obtain ⟨hanswer, -⟩ := Twin.answer_standard Transport.alike_eq h htables w
    (.execute argv out)
  obtain ⟨hresult, houtput⟩ := Prod.mk.inj (hanswer nofun)
  have hsame : ∀ {e e' : Execution τ}, e.forget = e'.forget →
      e.result = e'.result ∧ e.output = e'.output :=
    fun he => ⟨congrArg (fun e => e.result) he,
      congrArg (fun e => e.output) he⟩
  obtain ⟨hfirst, hfirst'⟩ := hsame (forget_execute htables hidle w out)
  obtain ⟨hlast, hlast'⟩ := hsame (forget_execute htables' hidle w out)
  exact ⟨hfirst.symm.trans (hresult.trans hlast),
    hfirst'.symm.trans (houtput.trans hlast')⟩

/-- **A step that is not idle** leaves near sessions near. -/
theorem perform (h : Near s s') (htables : s.tables = Standard.tables)
    {step : Step τ} (hidle : step.isIdle = false) :
    Near (s.perform step) (s'.perform step) := by
  have htables' : s'.tables = Standard.tables :=
    h.alike.tables.symm.trans htables
  have htwin : Near (s.forget.perform step) (s'.forget.perform step) := by
    cases step with
    | incident change =>
      exact (Twin.incident h fun ht => congrArg change ht).near
    | call w c =>
      exact (Twin.answer_standard Transport.alike_eq h htables w c).2.near
  exact htwin.congr (forget_perform htables hidle).symm
    (forget_perform htables' hidle).symm

end Near

variable [Transport τ]

/-- Making one of the settings that are only kept changes nothing else. -/
theorem forget_of_changes {k : Setting.Kind}
    (hk : k ∈ [Setting.Kind.delay, .authenticate, .key]) {c c' : Client τ}
    (h : (Scope.setting k).Changes c c') : c'.forget = c.forget := by
  rcases h with rfl | ⟨x, rfl, rfl⟩
  · rfl
  · cases x with
    | delay ms => rfl
    | authenticate on => rfl
    | key n => rfl
    | timeout _ | showHostnames _ | raw _ | version _ =>
      exact absurd hk (by simp [Setting.kind])

/-- The three commands are about these settings. -/
theorem scope_of_keeper {keyword : String}
    (h : keyword ∈ Standard.keepers) :
    ∃ k ∈ [Setting.Kind.delay, .authenticate, .key],
      (keyword, Scope.setting k) ∈ Standard.scopes := by
  rcases List.mem_cons.mp h with rfl | h
  · exact ⟨.authenticate, by decide, by decide⟩
  · rcases List.mem_cons.mp h with rfl | h
    · exact ⟨.key, by decide, by decide⟩
    · obtain rfl := List.mem_singleton.mp h
      exact ⟨.delay, by decide, by decide⟩

/-- **An idle step** leaves the session near to what it was. -/
theorem near_of_isIdle {s : Session τ} (hs : s.Coherent)
    (htables : s.tables = Standard.tables) {step : Step τ}
    (hidle : step.isIdle = true) : Near (s.perform step) s := by
  cases step with
  | incident change => exact nomatch hidle
  | call w c =>
    cases c with
    | execute argv out =>
      obtain ⟨keyword, raws, c, rfl, hresolve, hkeeper, hplain⟩ :=
        Standard.exists_of_isIdle hidle
      obtain ⟨k, hk, hscope⟩ := scope_of_keeper hkeeper
      obtain ⟨hopened, hcapacity, htables'⟩ :=
        hs.execute_frame w (keyword :: raws) out
      have hclient : (s.execute w (keyword :: raws) out).session.forget.client
          = s.forget.client :=
        forget_of_changes hk
          (changes_of_plain htables hresolve hplain hscope w out)
      exact ⟨⟨(hs.execute w _ out).congr rfl rfl, hs.congr rfl rfl,
        hclient ▸ .refl _, htables', hs.execute_scratch w _ out,
        fun hk => nomatch hk⟩, hcapacity⟩
    | _ => exact nomatch hidle

/-- **A history without its idle steps** leads to a near session. -/
theorem near_performAll {s s' : Session τ} (h : Near s s')
    (htables : s.tables = Standard.tables) (steps : List (Step τ)) :
    Near (s.performAll steps)
      (s'.performAll (steps.filter fun step => !step.isIdle)) := by
  induction steps generalizing s s' with
  | nil => exact h
  | cons step steps ih =>
    have htables' := (tables_perform s step).trans htables
    cases hidle : step.isIdle with
    | true =>
      rw [List.filter_cons_of_neg (by simp [hidle])]
      have hs : s.Coherent := h.alike.coherent.congr rfl rfl
      exact ih ((near_of_isIdle hs htables hidle).trans h) htables'
    | false =>
      rw [List.filter_cons_of_pos (by simp [hidle])]
      exact ih (h.perform htables hidle) htables'

end Near

/-! ## The history without them -/

variable [Transport τ]

/-- **The settings that are only kept are invisible.** Take all idle command
lines out of a history of a session. Then the client is the same at its end
but for these settings, and the transport has the same on record. Any
command line that is executed then, if it is not idle itself, has the same
result and the same output in both sessions, and is followed by the same on
record: the same datagrams sent, and the same waits. As every beginning of
a history is a history, this holds of every command line in it. -/
theorem kept_settings_invisible {s : Session (Traced τ)} (hs : s.Reached)
    (htables : s.tables = Standard.tables)
    (steps : List (Step (Traced τ))) :
    let a := s.performAll steps
    let b := s.performAll (steps.filter fun step => !step.isIdle)
    a.client.SameButKept b.client
      ∧ ∀ (w : World) (argv : List String) (out : Bytes),
        Standard.isIdle argv = false →
        let e := a.execute w argv out
        let e' := b.execute w argv out
        e.result = e'.result ∧ e.output = e'.output
          ∧ e.session.client.SameButKept e'.session.client := by
  intro a b
  have hnear : Near a b :=
    near_performAll (near_refl hs.coherent) htables steps
  have htables' : a.tables = Standard.tables :=
    (tables_performAll steps s).trans htables
  refine ⟨hnear.sameButKept, fun w argv out hidle => ?_⟩
  intro e e'
  obtain ⟨hresult, houtput⟩ := hnear.execute htables' hidle w out
  have hstep : Step.isIdle (.call w (.execute argv out)
    : Step (Traced τ)) = false := hidle
  have hnext : Near e.session e'.session := hnear.perform htables' hstep
  exact ⟨hresult, houtput, hnext.sameButKept⟩

/-- A key that is set, and a delay that cannot be read: neither is seen in
the question for the associations that is asked afterwards. -/
theorem kept_settings_invisible_as :
    let w : World := ⟨0, fun _ => [.v4 #v[192, 0, 2, 1]], .files 8,
      fun _ => true⟩
    let closed : Session (Traced (Exchange Script)) :=
      .new {} ⟨⟨⟨[]⟩, []⟩, []⟩ Standard.tables
    let s := (closed.create w 64).2
    let steps : List (Step (Traced (Exchange Script))) :=
      [["keyid", "7"], ["delay", "soon"]].map fun argv =>
        .call w (.execute argv [])
    let a := s.performAll steps
    let e := a.execute w ["as"] [0, 0]
    let e' := s.execute w ["as"] [0, 0]
    a.client.state.key = some 7 ∧ s.client.state.key = none
      ∧ e.result = e'.result ∧ e.output = e'.output
      ∧ e.session.client.transport.events
        = e'.session.client.transport.events
      ∧ e.session.client.transport.sent.length = 2 := by
  intro w closed s steps a e e'
  have hs : s.Reached := .answer w (.create 64) (.new {} _ _)
  have htables : s.tables = Standard.tables :=
    tables_perform closed (.call w (.create 64))
  have hnone : steps.filter (fun step => !step.isIdle) = [] := rfl
  obtain ⟨-, hline⟩ := kept_settings_invisible hs htables steps
  rw [hnone] at hline
  obtain ⟨hresult, houtput, hclient⟩ := hline w ["as"] [0, 0] (by decide)
  exact ⟨by decide +kernel, by decide +kernel, hresult, houtput,
    congrArg Traced.events hclient.transport, by decide +kernel⟩

end Session

end NtpQuery
