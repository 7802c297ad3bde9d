import NtpQuery.Net.Script
import NtpQuery.Proofs.Command.Frame
import NtpQuery.Proofs.Session.Early
import NtpQuery.Proofs.Session.Lifecycle

/-!
# What a command line may change

A command line whose words contain no index asks nobody while its
arguments are read. So it leaves the client alone, or performs its command
on the client as it is (`Session.run_of_plain`), and all that can be
changed then is in the scope of the command. The core commands send
nothing, and one that fails, whether for its arguments or by itself, leaves
the client exactly as it was (`Session.stays_in_scope`).
-/

namespace NtpQuery

namespace Session

/-- **A command line without an index** leaves the client alone and fails,
or performs its command on the client as it is. -/
theorem run_of_plain {τ : Type} [Transport τ] {s : Session τ}
    {keyword : String} {raws : List String}
    (hplain : ∀ raw ∈ raws, raw.toList.head? ≠ some '&')
    {c : Command Handler} (hresolve : s.tables.resolve keyword = some c)
    (w : World) :
    let e := s.run w (keyword :: raws)
    (e.session.client = s.client ∧ ∃ f, e.result = .error f)
      ∨ ∃ (i : Invocation) (r : Run τ Buffer), r.client = s.client
        ∧ e.result = (Run.ofCommand c.keyword
          (r.perform (s.tables.map fun _ => ()) (c.action i))).1
        ∧ e.session.client
          = (r.perform (s.tables.map fun _ => ()) (c.action i)).2.client := by
  intro e
  cases hready : s.isReady with
  | false =>
    refine Or.inl ?_
    rw [show e = _ from run_of_not_ready hready]
    exact ⟨rfl, _, rfl⟩
  | true =>
    obtain ⟨hopened, buffer, hbuffer⟩ := exists_buffer_of_ready hready
    have hread : (Coercion.invocation keyword c.slots raws
        (s.start w buffer.clear)).2 = s.start w buffer.clear :=
      Coercion.invocation_of_plain hplain
    rw [show e = _ from run_cons hopened hbuffer]
    unfold Run.dispatch
    rw [hresolve]
    dsimp only
    rcases Run.invoke_cases (s.tables.map fun _ => ()) c keyword raws
        (s.start w buffer.clear) with
      ⟨f, r, hr, heq⟩ | ⟨i, r, hr, heq⟩
    · rw [hr] at hread
      rw [heq, show r = _ from hread]
      exact Or.inl ⟨rfl, f, rfl⟩
    · rw [hr] at hread
      rw [heq, show r = _ from hread]
      exact Or.inr ⟨i, _, rfl, rfl, congrArg Run.client
        (Run.ofCommand_snd _ _)⟩

/-- **Such a command line stays within the scope of its command.** -/
theorem changes_of_plain {τ : Type} [Transport τ] {s : Session τ}
    (htables : s.tables = Standard.tables) {keyword : String}
    {c : Command Handler}
    (hresolve : Standard.tables.resolve keyword = some c)
    {raws : List String}
    (hplain : ∀ raw ∈ raws, raw.toList.head? ≠ some '&') {x : Scope}
    (hx : (c.keyword, x) ∈ Standard.scopes) (w : World) (out : Bytes) :
    x.Changes s.client
      (s.execute w (keyword :: raws) out).session.client := by
  rw [show (s.execute w (keyword :: raws) out).session.client
    = (s.run w (keyword :: raws)).session.client from (record_frame _ _).1]
  rcases run_of_plain hplain (htables ▸ hresolve) w with
    ⟨hsame, -⟩ | ⟨i, r, hr, -, hend⟩
  · rw [hsame]
    exact x.changes_refl s.client
  · rw [hend, ← hr]
    exact Standard.changes (Tables.mem_commands_of_resolve hresolve) hx i _ r

variable {τ : Type} [Transport τ]

/-- **Each command changes only what it is about.** Every command has a
scope. In a session in whatever state, a command line without an index among
its words changes the client within the scope of its command. A core command
sends nothing, and if it fails, the client is exactly as it was. -/
theorem stays_in_scope {s : Session (Traced τ)}
    (htables : s.tables = Standard.tables)
    {keyword : String} {c : Command Handler}
    (hresolve : Standard.tables.resolve keyword = some c)
    {raws : List String}
    (hplain : ∀ raw ∈ raws, raw.toList.head? ≠ some '&') (w : World)
    (out : Bytes) :
    let e := s.execute w (keyword :: raws) out
    (∃ x, (c.keyword, x) ∈ Standard.scopes)
      ∧ (∀ x, (c.keyword, x) ∈ Standard.scopes →
        x.Changes s.client e.session.client)
      ∧ (c ∈ Standard.core →
        e.session.client.transport.sent = s.client.transport.sent
          ∧ ∀ f, e.result = .error f → e.session.client = s.client) := by
  intro e
  obtain ⟨x, hx⟩ : ∃ x, (c.keyword, x) ∈ Standard.scopes := by
    have hkeyword : c.keyword ∈ Standard.scopes.map Prod.fst := by
      rw [Standard.map_fst_scopes]
      exact List.mem_map_of_mem (Tables.mem_commands_of_resolve hresolve)
    obtain ⟨p, hp, hfst⟩ := List.mem_map.mp hkeyword
    exact ⟨p.2, hfst ▸ hp⟩
  have hchanges : ∀ x, (c.keyword, x) ∈ Standard.scopes →
      x.Changes s.client e.session.client :=
    fun x hx => changes_of_plain htables hresolve hplain hx w out
  refine ⟨⟨x, hx⟩, hchanges, fun hcore => ?_⟩
  have hwhole := fun i =>
    Standard.whole (τ := Traced τ) (ω := Buffer) hcore hx i
  refine ⟨(hchanges x hx).sent (hwhole ⟨keyword, []⟩).1, fun f hf => ?_⟩
  rw [show e.session.client = (s.run w (keyword :: raws)).session.client
    from (record_frame _ _).1]
  rcases run_of_plain hplain (htables ▸ hresolve) w with
    ⟨hsame, -⟩ | ⟨i, r, hr, hend, hperformed⟩
  · exact hsame
  · -- a routine that fails has not made its change
    rw [show e.result = _ from hend] at hf
    rw [hperformed, ← hr]
    rcases (hwhole i).2 (s.tables.map fun _ => ()) r with
      ⟨y, r', heq, -⟩ | ⟨cause, r', heq, hsame⟩
    · rw [heq] at hf
      exact nomatch hf
    · rw [heq]
      exact hsame

/-- Choosing a server by its name changes the server and sends nothing;
asking for it in a family in which it has no address changes nothing. -/
theorem stays_in_scope_host :
    let w : World := ⟨0, fun _ => [.v4 #v[192, 0, 2, 1]], .files 8,
      fun _ => true⟩
    let closed : Session (Traced (Exchange Script)) :=
      .new {} ⟨⟨⟨[]⟩, []⟩, []⟩ Standard.tables
    let s := (closed.create w 64).2
    let e := s.execute w ["host", "ntp"] []
    let e' := e.session.execute w ["ho", "-6", "ntp"] []
    e.session.client.state.host = some ⟨"ntp", ⟨.v4 #v[192, 0, 2, 1], 123⟩⟩
      ∧ Scope.server.Changes s.client e.session.client
      ∧ e.session.client.transport.sent = s.client.transport.sent
      ∧ (∃ f, e'.result = .error f)
      ∧ e'.session.client = e.session.client := by
  intro w closed s e e'
  obtain ⟨c, hcore, hresolve, hresolve', hscope⟩ : ∃ c ∈ Standard.core,
      Standard.tables.resolve "host" = some c
        ∧ Standard.tables.resolve "ho" = some c
        ∧ (c.keyword, .server) ∈ Standard.scopes :=
    ⟨Standard.core[4], List.getElem_mem _, rfl, rfl, by decide⟩
  have htables : s.tables = Standard.tables :=
    tables_perform closed (.call w (.create 64))
  have htables' : e.session.tables = Standard.tables :=
    (tables_perform s (.call w (.execute ["host", "ntp"] []))).trans htables
  obtain ⟨-, hchanges, hquiet⟩ :=
    @stays_in_scope _ _ s htables _ _ hresolve ["ntp"] (by decide) w []
  obtain ⟨-, -, hquiet'⟩ := @stays_in_scope _ _ e.session htables' _ _
    hresolve' ["-6", "ntp"] (by decide) w []
  have hfails : e'.result.isOk = false := by decide +kernel
  cases hresult : e'.result with
  | ok _ =>
    rw [hresult] at hfails
    exact nomatch hfails
  | error f =>
    exact ⟨by decide +kernel, hchanges _ hscope, (hquiet hcore).1, ⟨f, rfl⟩,
      (hquiet' hcore).2 f hresult⟩

end Session

end NtpQuery
