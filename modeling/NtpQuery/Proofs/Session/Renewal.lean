import NtpQuery.Net.Script
import NtpQuery.Proofs.Session.Twin

/-!
# Nothing outlives a session

While a session is open its commands may choose a server, change settings,
draw sequence numbers, read a list of associations and leave datagrams
waiting. None of this is left once the session is closed
(`Session.blank_performAll`): the client is as its defaults make it, and
nothing waits to be received.

So what was done with two closed sessions before makes no difference to
what comes of them from now on (`Session.nothing_outlives`), but for one
thing: a session remembers its most recent failure beyond its closing. As
soon as something new fails, that is forgotten as well.
-/

namespace NtpQuery

namespace Session

variable {τ : Type} [Transport τ]

/-! ## Closed sessions -/

/-- **A blank session**: its client is as the defaults make it, and
nothing waits to be received. -/
def Blank (s : Session τ) : Prop :=
  s.client.state = Client.State.ofDefaults s.client.defaults
    ∧ Transport.pending s.client.transport = 0

/-- A client that has started again is blank. -/
theorem blank_reset {s : Session τ}
    (hempty : ∀ t : τ, Transport.pending (Transport.close t) = 0)
    (c : Client τ) (h : s.client = c.reset) : s.Blank := by
  unfold Blank
  rw [h]
  exact ⟨rfl, hempty c.transport⟩

/-- **A step** leaves a closed session blank, or opens it. -/
theorem blank_perform {s : Session τ}
    (hempty : ∀ t : τ, Transport.pending (Transport.close t) = 0)
    (hs : s.Coherent) (h : s.opened = false → s.Blank) (step : Step τ)
    (hclosed : (s.perform step).opened = false) :
    (s.perform step).Blank := by
  cases step with
  | incident change =>
    cases hopened : s.opened with
    | true =>
      rw [incident_of_opened hopened] at hclosed
      exact absurd (hclosed.symm.trans hopened) (by decide)
    | false =>
      rw [incident_of_closed hopened]
      exact h hopened
  | call w c =>
    cases c with
    | isReady => exact h hclosed
    | lastError => exact h hclosed
    | configure d =>
      exact blank_reset hempty { s.client with defaults := d } rfl
    | destroy =>
      show s.destroy.Blank
      cases hopened : s.opened with
      | true =>
        rw [destroy_of_opened hopened]
        exact blank_reset hempty s.client rfl
      | false =>
        rw [destroy_of_closed hopened]
        exact h hopened
    | create n =>
      have hclosed : (s.create w n).2.opened = false := hclosed
      show (s.create w n).2.Blank
      rcases s.create_cases w n with
        ⟨-, heq⟩ | ⟨hopened, e, -, heq⟩ | ⟨-, b, -, heq⟩
      · rw [heq] at hclosed ⊢
        exact h hclosed
      · rw [heq]
        exact h hopened
      · rw [heq] at hclosed
        exact nomatch hclosed
    | execute argv out =>
      have hopened := (hs.execute_frame w argv out).1.symm.trans hclosed
      have hrun : s.run w argv = ⟨.error .notOpen, [], [], s⟩ :=
        run_of_not_ready (hs.isReady_eq.trans hopened)
      show (s.execute w argv out).session.Blank
      unfold execute
      rw [hrun]
      exact h hopened

/-- **A closed session is blank**, whatever its history. -/
theorem blank_performAll {s : Session τ}
    (hempty : ∀ t : τ, Transport.pending (Transport.close t) = 0)
    (hs : s.Reached) (h : s.opened = false → s.Blank)
    (steps : List (Step τ)) (hclosed : (s.performAll steps).opened = false) :
    (s.performAll steps).Blank := by
  induction steps generalizing s with
  | nil => exact h hclosed
  | cons step steps ih =>
    exact ih (hs.perform step) (blank_perform hempty hs.coherent h step)
      hclosed

/-! ## Two histories and a common future -/

section Future

variable {known : Bool} {old old' : List NetEvent}
variable {s s' : Session (Traced τ)}

/-- **The same operation in two sessions**, with pasts `old` and `old'`.
The most recent failure is the same if it is `known` to be, and in any
case if the operation fails. -/
structure SameAnswer (old old' : List NetEvent) (known : Bool) (w : World)
    (c : SessionCall) (s s' : Session (Traced τ)) : Prop where
  /-- It returns the same, output included. -/
  answer : (c = .lastError → known = true) →
    (s.answer w c).1 = (s'.answer w c).1
  /-- The clients remember the same afterwards. -/
  state : (s.answer w c).2.client.state = (s'.answer w c).2.client.state
  /-- The servers are in the same state, and since the two pasts the same
  datagrams were sent and received, with the same waits. -/
  transport : Traced.SameSince old old' (s.answer w c).2.client.transport
    (s'.answer w c).2.client.transport
  /-- The most recent failure is the same. -/
  lastError : (known || s.failsIn (.call w c)) = true →
    (s.answer w c).2.lastError = (s'.answer w c).2.lastError

/-- Twins answer in the same way. -/
theorem Twin.sameAnswer (h : Twin (Traced.SameSince old old') known s s')
    {w : World} {c : SessionCall}
    (hask : known = true ∨ s.asksIn (.call w c) = false) :
    SameAnswer old old' known w c s s' := by
  rcases h.answer (Traced.alike_sameSince old old') w c with
    ⟨hknown, hasks⟩ | ⟨hanswer, hnext⟩
  · rw [hknown, hasks] at hask
    exact absurd hask (by decide)
  · exact ⟨hanswer, hnext.alike.client.state, hnext.alike.client.transport,
      hnext.alike.lastError⟩

end Future

/-- **The past of a session**: how it started, and what was done with it
since. Nothing waits to be received at the start. -/
structure Past (τ : Type) [Transport τ] where
  /-- The defaults of the client. -/
  defaults : Defaults
  /-- What the client talks through. -/
  transport : τ
  /-- The commands. -/
  tables : Tables Handler
  /-- What was done, oldest first. -/
  steps : List (Step τ)
  /-- Nothing waits at the start. -/
  pending : Transport.pending transport = 0

namespace Past

/-- The session with this past, its transport keeping account. -/
def session (p : Past τ) : Session (Traced τ) :=
  (new p.defaults ⟨p.transport, []⟩ p.tables).performAll
    (p.steps.map Step.traced)

theorem reached (p : Past τ) : p.session.Reached :=
  (Reached.new ..).performAll _

theorem tables_session (p : Past τ) : p.session.tables = p.tables :=
  tables_performAll ..

/-- **A session that is closed is blank**, whatever its past. -/
theorem blank (hempty : ∀ t : τ, Transport.pending (Transport.close t) = 0)
    (p : Past τ) (hclosed : p.session.isReady = false) :
    p.session.Blank := by
  have hempty' : ∀ t : Traced τ,
      Transport.pending (Transport.close t) = 0 := fun t => hempty t.inner
  have hstart : (new p.defaults (⟨p.transport, []⟩ : Traced τ)
      p.tables).Blank := ⟨rfl, p.pending⟩
  have hopened : p.session.opened = false :=
    p.reached.coherent.isReady_eq.symm.trans hclosed
  exact blank_performAll hempty' (.new ..) (fun _ => hstart)
    (p.steps.map Step.traced) hopened

/-- **Closed sessions are twins**, if they have the same defaults and
tables, and servers in the same state. -/
theorem twin (hempty : ∀ t : τ, Transport.pending (Transport.close t) = 0)
    {p p' : Past τ} (hclosed : p.session.isReady = false)
    (hclosed' : p'.session.isReady = false)
    (hdefaults : p.session.client.defaults = p'.session.client.defaults)
    (htables : p.tables = p'.tables)
    (hserver : p.session.client.transport.inner
      = p'.session.client.transport.inner)
    (last : ErrorRecord) :
    Twin (Traced.SameSince p.session.client.transport.events
        p'.session.client.transport.events)
      (decide (last = p.session.lastError)) p.session
      { p'.session with lastError := last } := by
  have hs := p.reached.coherent
  have hs' := p'.reached.coherent
  obtain ⟨hstate, -⟩ := p.blank hempty hclosed
  obtain ⟨hstate', -⟩ := p'.blank hempty hclosed'
  have hbuffer : p.session.buffer = none := by
    rw [hs.isReady_eq, hs.opened] at hclosed
    exact Option.not_isSome_iff_eq_none.mp (Bool.eq_false_iff.mp hclosed)
  have hbuffer' : p'.session.buffer = none := by
    rw [hs'.isReady_eq, hs'.opened] at hclosed'
    exact Option.not_isSome_iff_eq_none.mp (Bool.eq_false_iff.mp hclosed')
  refine ⟨⟨hs, hs'.congr rfl rfl, ⟨?_, hdefaults, hserver, [],
    (List.append_nil _).symm, (List.append_nil _).symm⟩, ?_, ?_,
    fun hk => (of_decide_eq_true hk).symm⟩, ?_⟩
  · rw [hstate, hstate', hdefaults]
  · rw [p.tables_session, htables]
    exact p'.tables_session.symm
  · show p.session.buffer.map _ = p'.session.buffer.map _
    rw [hbuffer, hbuffer']
  · show p.session.buffer.map _ = p'.session.buffer.map _
    rw [hbuffer, hbuffer']

end Past

/-- **Nothing outlives a session**, if dropping a socket drops what waits
in it. A session that is closed is blank, whatever its past. Two of them
with the same defaults and tables, and with servers in the same state,
have the same future: whatever is done with both, every operation returns
the same, exchanges the same datagrams and leaves the clients the same.
This holds for all that the second session may remember as its most recent
failure, `last`. Until something new fails, that can make a difference to
those who ask for it, and there may be commands that do; the standard
commands do not. -/
theorem nothing_outlives
    (hempty : ∀ t : τ, Transport.pending (Transport.close t) = 0) :
    (∀ p : Past τ, p.session.isReady = false → p.session.Blank)
      ∧ ∀ p p' : Past τ, p.session.isReady = false →
        p'.session.isReady = false →
        p.session.client.defaults = p'.session.client.defaults →
        p.tables = p'.tables →
        p.session.client.transport.inner
          = p'.session.client.transport.inner →
        ∀ (last : ErrorRecord) (steps : List (Step τ)) (w : World)
          (c : SessionCall),
          let s := p.session
          let s' := { p'.session with lastError := last }
          let done := steps.map Step.traced
          last = s.lastError ∨ p.tables = Standard.tables
            ∨ asksEarly (done ++ [.call w c]) s = false →
          SameAnswer s.client.transport.events s'.client.transport.events
            (decide (last = s.lastError) || anyFails done s) w c
            (s.performAll done) (s'.performAll done) := by
  refine ⟨fun p hclosed => p.blank hempty hclosed, ?_⟩
  intro p p' hclosed hclosed' hdefaults htables hserver last steps w c s s'
    done hask
  have htwin :=
    Past.twin hempty hclosed hclosed' hdefaults htables hserver last
  -- whoever may ask, knows what to expect, or does not ask before something
  -- has failed
  have hquiet : decide (last = s.lastError) = true
      ∨ asksEarly (done ++ [.call w c]) s = false := by
    rcases hask with hlast | hstandard | hquiet
    · exact Or.inl (decide_eq_true hlast)
    · exact Or.inr (asksEarly_standard p.reached
        (p.tables_session.trans hstandard) _)
    · exact Or.inr hquiet
  rw [asksEarly_concat] at hquiet
  rcases htwin.performAll steps with ⟨hunknown, hasks⟩ | hend
  · rw [hunknown, show asksEarly done s = true from hasks] at hquiet
    exact absurd hquiet (by simp)
  · refine hend.sameAnswer ?_
    rcases hquiet with hknown | hquiet
    · exact Or.inl (by rw [hknown, Bool.true_or])
    · obtain ⟨-, hlast⟩ := Bool.or_eq_false_iff.mp hquiet
      cases hfails : anyFails done s with
      | true => exact Or.inl (Bool.or_true _)
      | false =>
        rw [hfails] at hlast
        exact Or.inr hlast

/-- A command that prints the most recent failure tells two closed sessions
apart, one of which has failed before. It asks before anything new fails. -/
example :
    let w : World := ⟨0, fun _ => [], .files 8, fun _ => true⟩
    let server : Exchange Script := ⟨⟨[]⟩, []⟩
    let tell : Command Handler :=
      { keyword := "tell"
        slots := []
        usage := ""
        comment := "print the most recent failure"
        action := fun _ => do
          let last ← Routine.ask (.session .lastError)
          Routine.printLine last.text }
    let p : Past (Exchange Script) :=
      ⟨{}, server, ⟨[tell], []⟩, [.call w (.create 64),
        .call w (.execute ["nonsense"] []), .call w .destroy], rfl⟩
    let p' : Past (Exchange Script) :=
      ⟨{}, server, ⟨[tell], []⟩, [], rfl⟩
    let again : List (Step (Exchange Script)) := [.call w (.create 64)]
    let ask : SessionCall := .execute ["tell"] (Bytes.zeros 64)
    let output (p : Past (Exchange Script)) :=
      ((p.session.performAll (again.map Step.traced)).answer w ask).1.2
    p.session.isReady = false ∧ p'.session.isReady = false
      ∧ asksEarly (again.map Step.traced ++ [.call w ask]) p.session = true
      ∧ output p ≠ output p' := by
  decide +kernel

/-- A server that was chosen and a version that was set are forgotten: the
session says what one says that has just started. -/
theorem nothing_outlives_host :
    let w : World := ⟨0, fun _ => [], .files 8, fun _ => true⟩
    let server : Exchange Script := ⟨⟨[]⟩, []⟩
    let p : Past (Exchange Script) :=
      ⟨{}, server, Standard.tables, [.call w (.create 64),
        .call w (.execute ["host", "192.0.2.1"] []),
        .call w (.execute ["ntpversion", "3"] []),
        .call w (.execute ["nonsense"] []), .call w .destroy], rfl⟩
    let p' : Past (Exchange Script) := ⟨{}, server, Standard.tables, [], rfl⟩
    let again : List (Step (Exchange Script)) := [.call w (.create 32)]
    let ask : SessionCall := .execute ["host"] (Bytes.zeros 20)
    p.session.isReady = false ∧ p'.session.isReady = false
      ∧ p.session.client.transport.inner = p'.session.client.transport.inner
      ∧ p.session.lastError ≠ p'.session.lastError
      ∧ ((p.session.performAll (again.map Step.traced)).answer w ask).1.2
        = Text.utf8 "no current host\n" ++ [0, 0, 0, 0] := by
  intro w server p p' again ask
  have hclosed : p.session.isReady = false := by decide
  have hclosed' : p'.session.isReady = false := by decide
  have hfresh : ((p'.session.performAll (again.map Step.traced)).answer w
      ask).1.2 = Text.utf8 "no current host\n" ++ [0, 0, 0, 0] := by decide
  have hidle : ∀ t : Exchange Script, t.responder.rules.isEmpty = true →
      t.queue.isEmpty = true → t = server := by
    rintro ⟨⟨rules⟩, queue⟩ hrules hqueue
    obtain rfl := List.isEmpty_iff.mp hrules
    obtain rfl := List.isEmpty_iff.mp hqueue
    rfl
  have hserver : p.session.client.transport.inner
      = p'.session.client.transport.inner :=
    hidle _ (by decide) (by decide)
  have hsame := (nothing_outlives fun _ : Exchange Script => rfl).2 p p'
    hclosed hclosed' (by decide) rfl hserver p'.session.lastError again w ask
    (Or.inr (Or.inl rfl))
  refine ⟨hclosed, hclosed', hserver, by decide, ?_⟩
  exact (congrArg Prod.snd (hsame.answer nofun)).trans hfresh

end Session

end NtpQuery
