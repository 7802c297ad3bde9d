import NtpQuery.Proofs.Command.Steady
import NtpQuery.Proofs.Net.Trace

/-!
# What each command may change

Every command has a `Scope`: one setting, the server, what a query needs,
or nothing. Whatever its arguments are, it changes the client within its
scope only (`Standard.changes`). The core commands are more careful than
that: they ask nobody, and when one of them fails, the client is exactly as
it was before (`Standard.whole`).

A core command first makes its change, or fails, and from then on only
shows things. A routine that only `Shows` things cannot fail any more, and
this is what makes a failing command leave no trace.
-/

namespace NtpQuery

variable {τ ω : Type}

/-- **The kinds of settings.** -/
inductive Setting.Kind where
  /-- The wait for the first fragment of a response. -/
  | timeout
  /-- The authentication delay. -/
  | delay
  /-- Whether tables show host names or addresses. -/
  | showHostnames
  /-- Whether variables are shown as they came. -/
  | raw
  /-- Whether requests should be authenticated. -/
  | authenticate
  /-- The version that requests claim. -/
  | version
  /-- The key to authenticate with. -/
  | key
  deriving DecidableEq

/-- The kind of a setting. -/
def Setting.kind : Setting → Kind
  | timeout _ => .timeout
  | delay _ => .delay
  | showHostnames _ => .showHostnames
  | raw _ => .raw
  | authenticate _ => .authenticate
  | version _ => .version
  | key _ => .key

/-- **What a command is about.** -/
inductive Scope where
  /-- Nothing that the client remembers. -/
  | nothing
  /-- One setting. -/
  | setting (kind : Setting.Kind)
  /-- The server. -/
  | server
  /-- What the server knows. -/
  | queries
  deriving DecidableEq

namespace Scope

variable [Transport τ]

/-- **What may become of a client** in a command of a scope. A setting is
made, the client turns to a server, or queries are made: these draw
sequence numbers, may replace the list of associations, and choose the
default host if there is none. -/
def Changes : Scope → Client τ → Client τ → Prop
  | nothing, c, c' => c' = c
  | setting k, c, c' =>
    c' = c ∨ ∃ x : Setting, x.kind = k ∧ c' = c.modify x.apply
  | server, c, c' =>
    c' = c ∨ ∃ host family,
      (c.state.host.map (·.addr) = some host.addr
        ∧ c' = { c with
          state := { c.state with family := family, host := some host } })
      ∨ (c.state.host.map (·.addr) ≠ some host.addr
        ∧ c' = { c with
          state := { c.state with
            family := family
            host := some host
            associations := [] }
          transport := Transport.close c.transport })
  | queries, c, c' =>
    ∃ sequence associations host transport,
      c' = { c with
        state := { c.state with
          sequence := sequence
          associations := associations
          host := host }
        transport := transport }
      ∧ (host = c.state.host
        ∨ c.state.host = none
          ∧ ∃ addr, host = some ⟨c.defaults.host, addr⟩)

/-- A command may change nothing. -/
theorem changes_refl (x : Scope) (c : Client τ) : x.Changes c c := by
  cases x with
  | nothing => rfl
  | setting k => exact Or.inl rfl
  | server => exact Or.inl rfl
  | queries =>
    exact ⟨c.state.sequence, c.state.associations, c.state.host, c.transport,
      rfl, Or.inl rfl⟩

/-- Queries may follow one another. -/
theorem changes_queries_trans {c c' c'' : Client τ}
    (h : queries.Changes c c') (h' : queries.Changes c' c'') :
    queries.Changes c c'' := by
  obtain ⟨n, list, host, t, rfl, hhost⟩ := h
  obtain ⟨n', list', host', t', rfl, hhost'⟩ := h'
  refine ⟨n', list', host', t', rfl, ?_⟩
  rcases hhost' with rfl | ⟨hnone, haddr⟩
  · exact hhost
  · rcases hhost with rfl | ⟨hnone', -⟩
    · exact Or.inr ⟨hnone, haddr⟩
    · exact Or.inr ⟨hnone', haddr⟩

/-- **Nothing is sent** but by queries. -/
theorem Changes.sent {x : Scope} {c c' : Client (Traced τ)}
    (h : x.Changes c c') (hx : x ≠ queries) :
    c'.transport.sent = c.transport.sent := by
  cases x with
  | nothing => rw [show c' = c from h]
  | setting k =>
    rcases h with rfl | ⟨x, -, rfl⟩
    · rfl
    · rfl
  | server =>
    rcases h with rfl | ⟨host, family, ⟨-, rfl⟩ | ⟨-, rfl⟩⟩
    · rfl
    · rfl
    · exact Traced.sent_close c.transport
  | queries => exact absurd rfl hx

end Scope

section Queries

variable [Transport τ]

/-- **A query** stays in its scope. -/
theorem Inquiry.changes_outcome (q : Inquiry τ) :
    Scope.queries.Changes q.client q.outcome.client := by
  have hsame : ∀ c : Client τ, ∀ s d, c.state = s → c.defaults = d →
      c = ⟨s, d, c.transport⟩ := by
    rintro c _ _ rfl rfl
    rfl
  rcases q.remembered_cases with
    heq | ⟨hstate, hdefaults⟩ | ⟨hnone, addr, hstate, hdefaults⟩
  · rw [heq]
    exact Scope.changes_refl _ _
  · exact ⟨_, _, _, _, hsame _ _ _ hstate hdefaults, Or.inl rfl⟩
  · exact ⟨_, _, _, _, hsame _ _ _ hstate hdefaults,
      Or.inr ⟨hnone, addr, rfl⟩⟩

/-- So does reading the list of associations anew. -/
theorem Client.changes_refresh (w : World) (scratch : Bytes)
    (c : Client τ) :
    Scope.queries.Changes c (c.refresh w scratch).client := by
  have hquery := (Inquiry.listInquiry w c scratch).changes_outcome
  unfold Client.refresh
  dsimp only
  split
  · exact hquery
  · split
    · exact hquery
    · refine Scope.changes_queries_trans hquery ?_
      exact ⟨_, _, _, _, rfl, Or.inl rfl⟩

end Queries

variable [Transport τ] [Workspace ω]

namespace Routine

variable {α β : Type}

/-- **A routine that only shows things**: it cannot fail, and leaves the
client alone. -/
def Shows (τ ω : Type) [Transport τ] [Workspace ω] (a : Routine α) : Prop :=
  ∀ (t : Tables Unit) (r : Run τ ω), ∃ x r',
    r.perform t a = (.ok x, r') ∧ r'.client = r.client

/-- **A routine that is carried out as a whole**: if it succeeds, the client
has changed as `P` says, and if it fails, not at all. -/
def Whole (ω : Type) [Workspace ω] (P : Client τ → Client τ → Prop)
    (a : Routine α) : Prop :=
  ∀ (t : Tables Unit) (r : Run τ ω),
    (∃ x r', r.perform t a = (.ok x, r') ∧ P r.client r'.client)
      ∨ ∃ e r', r.perform t a = (.error e, r') ∧ r'.client = r.client

theorem shows_pure (x : α) : Shows τ ω (pure x : Routine α) :=
  fun _ r => ⟨x, r, rfl, rfl⟩

theorem shows_state : Shows τ ω state :=
  fun _ r => ⟨r.client.state, r, rfl, rfl⟩

theorem shows_catalogue : Shows τ ω (ask .catalogue) :=
  fun t r => ⟨t, r, rfl, rfl⟩

theorem shows_printLine (s : String) : Shows τ ω (printLine s) :=
  fun _ _ => ⟨(), _, rfl, rfl⟩

/-- One thing is shown after another. -/
theorem Shows.bind {a : Routine α} {f : α → Routine β} (ha : Shows τ ω a)
    (hf : ∀ x, Shows τ ω (f x)) : Shows τ ω (a >>= f) := by
  intro t r
  obtain ⟨x, r', heq, hclient⟩ := ha t r
  obtain ⟨y, r'', heq', hclient'⟩ := hf x t r'
  refine ⟨y, r'', ?_, hclient'.trans hclient⟩
  rw [Run.perform_bind, heq]
  exact heq'

theorem shows_printLines (lines : List String) :
    Shows τ ω (lines.forM printLine) := by
  induction lines with
  | nil => exact shows_pure ()
  | cons line lines ih =>
    show Shows τ ω (printLine line >>= fun _ => lines.forM printLine)
    exact (shows_printLine line).bind fun _ => ih

variable {P : Client τ → Client τ → Prop}

/-- What only shows things is carried out as a whole. -/
theorem Shows.whole {a : Routine α} (h : Shows τ ω a)
    (hP : ∀ c, P c c) : Whole ω P a := by
  intro t r
  obtain ⟨x, r', heq, hclient⟩ := h t r
  exact Or.inl ⟨x, r', heq, hclient ▸ hP r.client⟩

theorem whole_throw (e : ClientError) :
    Whole ω P (throw e : Routine α) :=
  fun _ r => Or.inr ⟨e, r, rfl, rfl⟩

theorem whole_modify {f : Client.State → Client.State}
    (hf : ∀ c : Client τ, P c (c.modify f)) : Whole ω P (modify f) :=
  fun _ r => Or.inl ⟨(), _, rfl, hf r.client⟩

/-- **After a change nothing but showing things**: then the routine is
carried out as a whole. -/
theorem Whole.bind {a : Routine α} {f : α → Routine β} (ha : Whole ω P a)
    (hf : ∀ x, Shows τ ω (f x)) : Whole ω P (a >>= f) := by
  intro t r
  rw [Run.perform_bind]
  rcases ha t r with ⟨x, r', heq, hP⟩ | ⟨e, r', heq, hclient⟩
  · obtain ⟨y, r'', heq', hclient'⟩ := hf x t r'
    rw [heq]
    exact Or.inl ⟨y, r'', heq', hclient' ▸ hP⟩
  · rw [heq]
    exact Or.inr ⟨e, r', rfl, hclient⟩

/-- **Choosing the server** is done or not. -/
theorem whole_selectHost (name : String) (family : AddressFamily) :
    Whole (τ := τ) ω Scope.server.Changes (selectHost name family) := by
  intro t r
  have hperform : r.perform t (selectHost name family)
      = ((r.client.selectHost r.world name family).1, { r with
        client := (r.client.selectHost r.world name family).2 }) := rfl
  rw [hperform]
  unfold Client.selectHost
  cases r.client.locate r.world name family with
  | error e => exact Or.inr ⟨e, r, rfl, rfl⟩
  | ok addr =>
    exact Or.inl ⟨(), _, rfl, Or.inr ⟨⟨name, addr⟩, family,
      r.client.turnTo_cases ⟨name, addr⟩ family⟩⟩

/-- **A setting of a kind** is made. -/
theorem whole_setting {x : Setting} {k : Setting.Kind} (hx : x.kind = k) :
    Whole (τ := τ) ω (Scope.setting k).Changes (modify x.apply) :=
  whole_modify fun _ => Or.inr ⟨x, hx, rfl⟩

end Routine

open Routine

namespace Settings

theorem shows_help (i : Invocation) : Shows τ ω (help i) := by
  refine shows_catalogue.bind fun t => ?_
  cases i.text? 0 with
  | none => exact (shows_printLine _).bind fun _ => shows_printLines _
  | some topic =>
    dsimp only
    cases Tables.resolve t topic with
    | none => exact shows_printLine _
    | some c => exact (shows_printLine _).bind fun _ => shows_printLine _

theorem whole_timeout (i : Invocation) :
    Whole (τ := τ) ω (Scope.setting .timeout).Changes (timeout i) := by
  unfold timeout
  cases i.unsigned? 0 with
  | none =>
    exact (shows_state.bind fun _ => shows_printLine _).whole
      (Scope.changes_refl _)
  | some ms => exact whole_setting (x := .timeout ms) rfl

theorem whole_delay (i : Invocation) :
    Whole (τ := τ) ω (Scope.setting .delay).Changes (delay i) := by
  unfold delay
  cases i.signed? 0 with
  | none =>
    exact (shows_state.bind fun _ => shows_printLine _).whole
      (Scope.changes_refl _)
  | some ms => exact whole_setting (x := .delay ms) rfl

theorem whole_host (i : Invocation) :
    Whole (τ := τ) ω Scope.server.Changes (host i) := by
  unfold host
  split
  · refine (shows_state.bind fun s => ?_).whole (Scope.changes_refl _)
    cases s.host with
    | none => exact shows_printLine _
    | some host => exact shows_printLine _
  · split
    · exact (whole_selectHost _ _).bind fun _ => shows_printLine _
    · exact whole_throw _
    · exact (whole_selectHost _ _).bind fun _ => shows_printLine _

/-- A switch is set, or the value is neither yes nor no. -/
theorem whole_setSwitch {x : Bool → Setting} {k : Setting.Kind}
    (hx : ∀ on, (x on).kind = k) (i : Invocation) :
    Whole (τ := τ) ω (Scope.setting k).Changes
      (setSwitch i fun on => (x on).apply) := by
  unfold setSwitch
  cases i.text? 0 with
  | none => exact (shows_pure ()).whole (Scope.changes_refl _)
  | some value =>
    dsimp only
    cases switchValue value with
    | error e => exact whole_throw e
    | ok on => exact whole_setting (hx on)

theorem whole_hostnames (i : Invocation) :
    Whole (τ := τ) ω (Scope.setting .showHostnames).Changes
      (hostnames i) := by
  refine (whole_setSwitch (x := .showHostnames) (fun _ => rfl) i).bind
    fun _ => shows_state.bind fun s => ?_
  split
  · exact shows_printLine _
  · exact shows_printLine _

theorem whole_raw (i : Invocation) :
    Whole (τ := τ) ω (Scope.setting .raw).Changes (raw i) :=
  (whole_setting (x := .raw true) rfl).bind fun _ => shows_printLine _

theorem whole_cooked (i : Invocation) :
    Whole (τ := τ) ω (Scope.setting .raw).Changes (cooked i) :=
  (whole_setting (x := .raw false) rfl).bind fun _ => shows_printLine _

theorem whole_authenticate (i : Invocation) :
    Whole (τ := τ) ω (Scope.setting .authenticate).Changes
      (authenticate i) := by
  refine (whole_setSwitch (x := .authenticate) (fun _ => rfl) i).bind
    fun _ => shows_state.bind fun s => ?_
  split
  · exact shows_printLine _
  · exact shows_printLine _

theorem whole_ntpVersion (i : Invocation) :
    Whole (τ := τ) ω (Scope.setting .version).Changes (ntpVersion i) := by
  refine Whole.bind ?_ fun _ =>
    shows_state.bind fun _ => shows_printLine _
  unfold setVersion
  cases i.unsigned? 0 with
  | none => exact (shows_pure ()).whole (Scope.changes_refl _)
  | some n =>
    dsimp only
    split
    · exact whole_setting (x := .version (UInt8.ofNat n.toNat)) rfl
    · exact whole_throw _

theorem whole_keyId (i : Invocation) :
    Whole (τ := τ) ω (Scope.setting .key).Changes (keyId i) := by
  refine Whole.bind ?_ fun _ => shows_state.bind fun s => ?_
  · unfold setKey
    cases i.unsigned? 0 with
    | none => exact (shows_pure ()).whole (Scope.changes_refl _)
    | some n =>
      dsimp only
      split
      · exact whole_setting (x := .key _) rfl
      · exact whole_throw _
  · cases s.key with
    | none => exact shows_printLine _
    | some key => exact shows_printLine _

end Settings

namespace Standard

/-- **The scopes of the commands.** -/
def scopes : List (String × Scope) :=
  [("?", .nothing), ("help", .nothing), ("timeout", .setting .timeout),
    ("delay", .setting .delay), ("host", .server),
    ("hostnames", .setting .showHostnames), ("raw", .setting .raw),
    ("cooked", .setting .raw), ("authenticate", .setting .authenticate),
    ("ntpversion", .setting .version), ("keyid", .setting .key),
    ("version", .nothing), ("associations", .queries),
    ("passociations", .queries), ("lassociations", .queries),
    ("lpassociations", .queries), ("readlist", .queries), ("rl", .queries),
    ("readvar", .queries), ("rv", .queries), ("pstatus", .queries),
    ("clockvar", .queries), ("cv", .queries), ("peers", .queries),
    ("lpeers", .queries)]

/-- Every command has a scope. -/
theorem map_fst_scopes :
    scopes.map Prod.fst = tables.commands.map (·.keyword) := rfl

/-- **The core commands are carried out as a whole**, and none of them makes
queries. -/
theorem whole {c : Command Handler} (hc : c ∈ core) {x : Scope}
    (hx : (c.keyword, x) ∈ scopes) (i : Invocation) :
    x ≠ .queries ∧ Whole (τ := τ) ω x.Changes (c.action i) := by
  have hall : ∀ c ∈ core, ∀ x, (c.keyword, x) ∈ scopes →
      x ≠ .queries ∧ Whole (τ := τ) ω x.Changes (c.action i) := by
    have hshows : ∀ {a : Routine Unit}, Shows τ ω a →
        Whole (τ := τ) ω Scope.nothing.Changes a :=
      fun h => h.whole (Scope.changes_refl _)
    simp only [core, scopes, List.mem_cons, List.not_mem_nil, or_false,
      Prod.mk.injEq, ne_eq, forall_eq_or_imp, true_and, String.reduceEq,
      false_and, or_self, forall_eq, reduceCtorEq, not_false_eq_true,
      false_or, and_self_left]
    -- one for each command, in the order of the table; help has two names
    exact ⟨hshows (Settings.shows_help i),
      Settings.whole_timeout i, Settings.whole_delay i,
      Settings.whole_host i, Settings.whole_hostnames i,
      Settings.whole_raw i, Settings.whole_cooked i,
      Settings.whole_authenticate i, Settings.whole_ntpVersion i,
      Settings.whole_keyId i, hshows (shows_printLine _)⟩
  exact hall c hc x hx

/-- **The extended commands** make queries and do nothing else. -/
theorem changes_extended {c : Command Handler} (hc : c ∈ extended)
    (i : Invocation) (t : Tables Unit) (r : Run τ ω) :
    Scope.queries.Changes r.client (r.perform t (c.action i)).2.client := by
  refine (asks hc i).keeps (I := fun r' =>
    Scope.queries.Changes r.client r'.client) ?_ t (Scope.changes_refl _ _)
  intro catalogue call r' hcall h
  cases call with
  | query opcode assid data =>
    exact Scope.changes_queries_trans h
      (Inquiry.changes_outcome ⟨r'.world, r'.client, opcode, assid, data,
        Workspace.scratch r'.workspace⟩)
  | refresh =>
    exact Scope.changes_queries_trans h (Client.changes_refresh _ _ _)
  | write _ | state | clock => exact h
  | _ => exact hcall.elim

/-- **Every command stays within its scope.** -/
theorem changes {c : Command Handler} (hc : c ∈ tables.commands) {x : Scope}
    (hx : (c.keyword, x) ∈ scopes) (i : Invocation) (t : Tables Unit)
    (r : Run τ ω) :
    x.Changes r.client (r.perform t (c.action i)).2.client := by
  rcases List.mem_append.mp hc with hc | hc
  · obtain ⟨-, hwhole⟩ := whole (τ := τ) (ω := ω) hc hx i
    rcases hwhole t r with ⟨y, r', heq, hchanges⟩ | ⟨e, r', heq, hsame⟩
    · rw [heq]
      exact hchanges
    · rw [heq, hsame]
      exact x.changes_refl r.client
  · have hqueries : ∀ c ∈ extended, ∀ x, (c.keyword, x) ∈ scopes →
        x = .queries := by
      simp [extended, scopes]
    rw [hqueries c hc x hx]
    exact changes_extended hc i t r

end Standard

end NtpQuery
