import NtpQuery.Command.Standard
import NtpQuery.Proofs.Client.Idle
import NtpQuery.Proofs.Command.Calls
import NtpQuery.Proofs.Command.Coercion

/-!
# Commands and the settings that are only kept

Three commands make the settings that are only kept, and show them. No
other command can tell what these settings are (`Standard.blind`): from
runs that differ in them only, it has the same result, writes the same and
asks the server the same, and leaves runs that differ in them only. Even the
three are blind if they are given a value, for then they show what they have
just been told (`Standard.blind_given`).

So of all command lines only those of the three, and of these only the ones
that could be read without a value, can tell. `Standard.isIdle` are the
lines of the three without an index among their words: they make no
difference to the others.
-/

namespace NtpQuery

variable {τ ω : Type}

/-- **The run without the settings that are only kept.** -/
def Run.forget (r : Run τ ω) : Run τ ω :=
  { r with client := r.client.forget }

variable [Transport τ] [Workspace ω]

namespace Run

variable {r r' : Run τ ω}

/-- A query. -/
theorem forget_query (opcode : Opcode) (assid : UInt16) (data : Bytes)
    (r : Run τ ω) : r.forget.query opcode assid data
      = ((r.query opcode assid data).1,
        (r.query opcode assid data).2.forget) := by
  unfold Run.query
  rw [show r.forget.client = r.client.forget from rfl, Client.forget_query]
  rfl

/-- Reading the list of associations anew. -/
theorem forget_refresh (r : Run τ ω) :
    r.forget.refresh = (r.refresh.1, r.refresh.2.forget) := by
  unfold Run.refresh
  rw [show r.forget.client = r.client.forget from rfl, Client.forget_refresh]
  rfl

/-- Reading it for an argument. -/
theorem forget_refreshForArgument (r : Run τ ω) :
    r.forget.refreshForArgument = r.refreshForArgument.forget := by
  unfold refreshForArgument
  rw [forget_refresh]
  rcases r.refresh with ⟨_ | _, _⟩ <;> rfl

/-- **Reading arguments** takes no notice. -/
theorem alike_forget : Surroundings.Alike fun r r' : Run τ ω =>
    r.forget = r'.forget where
  resolve h family name := congrArg (fun r => r.world.resolve family name) h
  family h := congrArg (fun r => r.client.state.family) h
  port h := congrArg (fun r => r.client.defaults.port) h
  listLength h := congrArg (fun r => r.client.state.associations.length) h
  listEntry? h i :=
    congrArg (fun r => r.client.state.associations[i]?.map (·.assid)) h
  refresh {r r'} h := by
    show r.refreshForArgument.forget = r'.refreshForArgument.forget
    rw [← forget_refreshForArgument, h, forget_refreshForArgument]

end Run

namespace Routine

variable {α β : Type}

/-- **A routine that is blind** to the settings that are only kept. -/
def Blind (τ ω : Type) [Transport τ] [Workspace ω] (a : Routine α) : Prop :=
  ∀ (t : Tables Unit) {r r' : Run τ ω}, r.forget = r'.forget →
    (r.perform t a).1 = (r'.perform t a).1
      ∧ (r.perform t a).2.forget = (r'.perform t a).2.forget

/-- It is enough if nothing changes when they are forgotten before. -/
theorem blind_of_forget {a : Routine α}
    (h : ∀ (t : Tables Unit) (r : Run τ ω),
      (r.forget.perform t a).1 = (r.perform t a).1
        ∧ (r.forget.perform t a).2.forget = (r.perform t a).2.forget) :
    Blind τ ω a := by
  intro t r r' hr
  obtain ⟨hresult, hend⟩ := h t r
  obtain ⟨hresult', hend'⟩ := h t r'
  rw [hr] at hresult hend
  exact ⟨hresult.symm.trans hresult', hend.symm.trans hend'⟩

theorem blind_pure (x : α) : Blind τ ω (pure x : Routine α) :=
  fun _ _ _ h => ⟨rfl, h⟩

theorem blind_throw (e : ClientError) : Blind τ ω (throw e : Routine α) :=
  fun _ _ _ h => ⟨rfl, h⟩

/-- **One blind routine after another.** -/
theorem Blind.bind {a : Routine α} {f : α → Routine β} (ha : Blind τ ω a)
    (hf : ∀ x, Blind τ ω (f x)) : Blind τ ω (a >>= f) := by
  intro t r r' h
  obtain ⟨heq, hnext⟩ := ha t h
  obtain ⟨result, q, q', hq, hq'⟩ := exists_of_fst_eq heq
  rw [hq, hq'] at hnext
  rw [Run.perform_bind, Run.perform_bind, hq, hq']
  cases result with
  | error e => exact ⟨rfl, hnext⟩
  | ok x => exact hf x t hnext

/-- Nothing comes after a failure. -/
theorem blind_throw_bind (e : ClientError) (f : α → Routine β) :
    Blind τ ω (throw e >>= f) :=
  fun _ _ _ h => ⟨rfl, h⟩

theorem blind_print (s : String) : Blind τ ω (print s) :=
  blind_of_forget fun _ _ => ⟨rfl, rfl⟩

theorem blind_printLine (s : String) : Blind τ ω (printLine s) :=
  blind_print _

theorem blind_clock : Blind τ ω (ask .clock) :=
  blind_of_forget fun _ _ => ⟨rfl, rfl⟩

theorem blind_catalogue : Blind τ ω (ask .catalogue) :=
  blind_of_forget fun _ _ => ⟨rfl, rfl⟩

theorem blind_query (opcode : Opcode) (assid : UInt16) (data : Bytes) :
    Blind τ ω (query opcode assid data) := by
  refine blind_of_forget fun t r => ?_
  rw [Run.perform_query, Run.perform_query, Run.forget_query]
  exact ⟨rfl, rfl⟩

theorem blind_refresh : Blind τ ω refresh := by
  refine blind_of_forget fun t r => ?_
  rw [Run.perform_refresh, Run.perform_refresh, Run.forget_refresh]
  exact ⟨rfl, rfl⟩

theorem blind_selectHost (name : String) (family : AddressFamily) :
    Blind τ ω (selectHost name family) := by
  refine blind_of_forget fun t r => ?_
  have hperform : ∀ r : Run τ ω, r.perform t (selectHost name family)
      = ((r.client.selectHost r.world name family).1, { r with
        client := (r.client.selectHost r.world name family).2 }) :=
    fun _ => rfl
  rw [hperform, hperform, show r.forget.client = r.client.forget from rfl,
    show r.forget.world = r.world from rfl, Client.forget_selectHost]
  exact ⟨rfl, rfl⟩

/-- **Making a setting**, also one that is only kept. -/
theorem blind_setting (x : Setting) : Blind τ ω (modify x.apply) := by
  refine blind_of_forget fun t r => ?_
  have hend : (r.forget.client.modify x.apply).forget
      = (r.client.modify x.apply).forget := by
    unfold Client.forget Client.modify
    dsimp only
    rw [x.forget_apply r.client.state]
    rfl
  rw [Run.perform_modify, Run.perform_modify]
  exact ⟨rfl, congrArg (fun c => { r with client := c }) hend⟩

/-- **Reading what the client remembers**, for what does not depend on those
settings. -/
theorem blind_state_bind {f : Client.State → Routine β}
    (hf : ∀ s, f s = f s.forget) (hb : ∀ s, Blind τ ω (f s)) :
    Blind τ ω (state >>= f) := by
  intro t r r' h
  have hstate : r.client.state.forget = r'.client.state.forget :=
    congrArg (fun r => r.client.state) h
  rw [Run.perform_bind, Run.perform_bind, Run.perform_state,
    Run.perform_state]
  dsimp only
  rw [hf r.client.state, hf r'.client.state, hstate]
  exact hb _ t h

/-- **Reading a setting that has just been made** tells nothing new. -/
theorem blind_setting_state {x : Setting} {g : Client.State → Routine β}
    (hg : ∀ s s', g (x.apply s) = g (x.apply s'))
    (hb : ∀ s, Blind τ ω (g s)) :
    Blind τ ω (modify x.apply >>= fun _ => state >>= g) := by
  intro t r r' h
  have hnext := (blind_setting x t h).2
  rw [Run.perform_modify, Run.perform_modify] at hnext
  rw [Run.perform_bind, Run.perform_bind, Run.perform_modify,
    Run.perform_modify]
  dsimp only at hnext ⊢
  rw [Run.perform_bind, Run.perform_bind, Run.perform_state,
    Run.perform_state]
  dsimp only
  rw [show g (r.client.modify x.apply).state
    = g (r'.client.modify x.apply).state from hg _ _]
  exact hb _ t hnext

/-- A blind routine for each entry of a list. -/
theorem blind_forM {xs : List α} {f : α → Routine Unit}
    (hf : ∀ x, Blind τ ω (f x)) : Blind τ ω (xs.forM f) := by
  induction xs with
  | nil => exact blind_pure ()
  | cons x xs ih =>
    show Blind τ ω (f x >>= fun _ => xs.forM f)
    exact (hf x).bind fun _ => ih

end Routine

open Routine

namespace Settings

theorem blind_help (i : Invocation) : Blind τ ω (help i) := by
  refine blind_catalogue.bind fun t => ?_
  cases i.text? 0 with
  | none =>
    exact (blind_printLine _).bind fun _ => blind_forM blind_printLine
  | some topic =>
    dsimp only
    cases Tables.resolve t topic with
    | none => exact blind_printLine _
    | some c => exact (blind_printLine _).bind fun _ => blind_printLine _

theorem blind_timeout (i : Invocation) : Blind τ ω (timeout i) := by
  unfold timeout
  cases i.unsigned? 0 with
  | none => exact blind_state_bind (fun _ => rfl) fun _ => blind_printLine _
  | some ms => exact blind_setting (.timeout ms)

theorem blind_host (i : Invocation) : Blind τ ω (host i) := by
  unfold host
  split
  · refine blind_state_bind (fun _ => rfl) fun s => ?_
    cases s.host with
    | none => exact blind_printLine _
    | some host => exact blind_printLine _
  · split
    · exact (blind_selectHost _ _).bind fun _ => blind_printLine _
    · exact blind_throw _
    · exact (blind_selectHost _ _).bind fun _ => blind_printLine _

theorem blind_hostnames (i : Invocation) : Blind τ ω (hostnames i) := by
  refine Blind.bind ?_ fun _ => blind_state_bind (fun _ => rfl) fun s => ?_
  · unfold setSwitch
    cases i.text? 0 with
    | none => exact blind_pure ()
    | some value =>
      dsimp only
      cases switchValue value with
      | error e => exact blind_throw e
      | ok on => exact blind_setting (.showHostnames on)
  · split
    · exact blind_printLine _
    · exact blind_printLine _

theorem blind_raw (i : Invocation) : Blind τ ω (raw i) :=
  (blind_setting (.raw true)).bind fun _ => blind_printLine _

theorem blind_cooked (i : Invocation) : Blind τ ω (cooked i) :=
  (blind_setting (.raw false)).bind fun _ => blind_printLine _

theorem blind_ntpVersion (i : Invocation) : Blind τ ω (ntpVersion i) := by
  refine Blind.bind ?_ fun _ =>
    blind_state_bind (fun _ => rfl) fun _ => blind_printLine _
  unfold setVersion
  cases i.unsigned? 0 with
  | none => exact blind_pure ()
  | some n =>
    dsimp only
    split
    · exact blind_setting (.version (UInt8.ofNat n.toNat))
    · exact blind_throw _

/-- A delay that is given is not shown. -/
theorem blind_delay {i : Invocation} {ms : Int64}
    (h : i.signed? 0 = some ms) : Blind τ ω (delay i) := by
  unfold delay
  rw [h]
  exact blind_setting (.delay ms)

/-- Of the switch for authentication, the value that is given is shown. -/
theorem blind_authenticate {i : Invocation} {value : String}
    (h : i.text? 0 = some value) : Blind τ ω (authenticate i) := by
  unfold authenticate setSwitch
  rw [h]
  dsimp only
  cases switchValue value with
  | error e => exact blind_throw_bind e _
  | ok on =>
    refine blind_setting_state (x := .authenticate on) (fun _ _ => rfl)
      fun s => ?_
    split
    · exact blind_printLine _
    · exact blind_printLine _

/-- So is a key that is given. -/
theorem blind_keyId {i : Invocation} {n : UInt64}
    (h : i.unsigned? 0 = some n) : Blind τ ω (keyId i) := by
  unfold keyId setKey
  rw [h]
  dsimp only
  split
  · refine blind_setting_state (x := .key _) (fun _ _ => rfl) fun s => ?_
    cases s.key with
    | none => exact blind_printLine _
    | some key => exact blind_printLine _
  · exact blind_throw_bind _ _

end Settings

namespace Associations

theorem blind_showLast (all : Bool) (i : Invocation) :
    Blind τ ω (showLast all i) :=
  blind_state_bind (fun _ => rfl) fun _ => blind_forM blind_printLine

theorem blind_showAnew (all : Bool) (i : Invocation) :
    Blind τ ω (showAnew all i) :=
  blind_refresh.bind fun _ => blind_showLast all i

end Associations

namespace Variables

theorem blind_readAndShow (opcode : Opcode) (assid : UInt16)
    (data : Bytes) : Blind τ ω (readAndShow opcode assid data) :=
  (blind_query opcode assid data).bind fun _ =>
    (blind_printLine _).bind fun _ =>
      blind_state_bind (fun _ => rfl) fun _ => blind_print _

theorem blind_readAll (i : Invocation) : Blind τ ω (readAll i) := by
  unfold readAll
  cases associationOf i with
  | error e => exact blind_throw e
  | ok assid => exact blind_readAndShow _ _ _

theorem blind_readNamed (opcode : Opcode) (i : Invocation) :
    Blind τ ω (readNamed opcode i) := by
  unfold readNamed
  cases associationOf i with
  | error e => exact blind_throw e
  | ok assid => exact blind_readAndShow _ _ _

end Variables

namespace Peers

theorem blind_showRow (family : AddressFamily) (now : Nat)
    (a : Association) : Blind τ ω (showRow family now a) := by
  refine (blind_query _ _ _).bind fun r => ?_
  split
  · exact blind_pure ()
  · split
    · exact blind_state_bind (fun _ => rfl) fun _ => blind_printLine _
    · exact blind_pure ()

theorem blind_showTable (all : Bool) (i : Invocation) :
    Blind τ ω (showTable all i) := by
  refine blind_refresh.bind fun _ =>
    blind_state_bind (fun _ => rfl) fun s => ?_
  dsimp only
  split
  · exact blind_printLine _
  · exact (blind_forM blind_printLine).bind fun _ =>
      blind_clock.bind fun _ => blind_forM fun a => blind_showRow _ _ a

end Peers

namespace Standard

/-- The commands that make the settings that are only kept. -/
def keepers : List String := ["authenticate", "keyid", "delay"]

/-- **No other command can tell** what these settings are. -/
theorem blind {c : Command Handler} (hc : c ∈ tables.commands)
    (hkeeper : c.keyword ∉ keepers) (i : Invocation) :
    Blind τ ω (c.action i) := by
  have hall : ∀ c ∈ tables.commands, c.keyword ∉ keepers →
      Blind τ ω (c.action i) := by
    simp only [Tables.commands, tables, core, extended, String.reduceAppend,
      List.cons_append, List.nil_append, List.mem_cons, List.not_mem_nil,
      or_false, keepers, not_or, and_imp, forall_eq_or_imp,
      String.reduceEq, not_false_eq_true, forall_const, not_true_eq_false,
      false_implies, forall_eq, and_self_left, true_and]
    -- in the order of the tables, neighbours that do the same taken together
    exact ⟨Settings.blind_help i, Settings.blind_timeout i,
      Settings.blind_host i, Settings.blind_hostnames i,
      Settings.blind_raw i, Settings.blind_cooked i,
      Settings.blind_ntpVersion i, blind_printLine _,
      Associations.blind_showAnew _ i, Associations.blind_showLast _ i,
      Associations.blind_showAnew _ i, Associations.blind_showLast _ i,
      Variables.blind_readAll i, Variables.blind_readNamed _ i,
      Variables.blind_readAll i, Variables.blind_readNamed _ i,
      Peers.blind_showTable _ i, Peers.blind_showTable _ i⟩
  exact hall c hc hkeeper

/-- **A value that is given** makes even the three commands blind. Each of
them takes one. -/
theorem blind_given {c : Command Handler} (hc : c ∈ tables.commands)
    (hkeeper : c.keyword ∈ keepers) :
    ∃ slot, c.slots = [slot] ∧ ∀ keyword a, Argument.kind a = slot.kind →
      Blind τ ω (c.action ⟨keyword, [a]⟩) := by
  have hdelay : ∀ keyword a, Argument.kind a = .signed →
      Blind τ ω (Settings.delay ⟨keyword, [a]⟩) := by
    intro keyword a ha
    cases a with
    | signed ms => exact Settings.blind_delay rfl
    | _ => exact nomatch ha
  have hauthenticate : ∀ keyword a, Argument.kind a = .text →
      Blind τ ω (Settings.authenticate ⟨keyword, [a]⟩) := by
    intro keyword a ha
    cases a with
    | text value => exact Settings.blind_authenticate rfl
    | _ => exact nomatch ha
  have hkeyId : ∀ keyword a, Argument.kind a = .unsigned →
      Blind τ ω (Settings.keyId ⟨keyword, [a]⟩) := by
    intro keyword a ha
    cases a with
    | unsigned n => exact Settings.blind_keyId rfl
    | _ => exact nomatch ha
  have hall : ∀ c ∈ tables.commands, c.keyword ∈ keepers →
      ∃ slot, c.slots = [slot] ∧ ∀ keyword a, Argument.kind a = slot.kind →
        Blind τ ω (c.action ⟨keyword, [a]⟩) := by
    simp only [Tables.commands, tables, core, extended, String.reduceAppend,
      List.cons_append, List.nil_append, List.mem_cons, List.not_mem_nil,
      or_false, keepers, forall_eq_or_imp, String.reduceEq, or_self,
      List.cons.injEq, and_true, exists_eq_left', false_implies, or_true,
      forall_const, List.cons_ne_self, and_false, false_and, exists_false,
      imp_self, List.ne_cons_self, forall_eq, and_self, true_and]
    exact ⟨hdelay, hauthenticate, hkeyId⟩
  exact hall c hc hkeeper

/-- **An idle command line**: one of the three commands without an index
among its words. -/
def isIdle : List String → Bool
  | [] => false
  | keyword :: raws =>
    match tables.resolve keyword with
    | none => false
    | some c => keepers.contains c.keyword
      && raws.all fun raw => raw.toList.head? != some '&'

/-- A command line whose keyword resolves. -/
theorem isIdle_of_resolve {keyword : String} {c : Command Handler}
    (h : tables.resolve keyword = some c) (raws : List String) :
    isIdle (keyword :: raws) = (keepers.contains c.keyword
      && raws.all fun raw => raw.toList.head? != some '&') := by
  unfold isIdle
  dsimp only
  rw [h]

/-- What an idle command line consists of. -/
theorem exists_of_isIdle {argv : List String} (h : isIdle argv = true) :
    ∃ keyword raws c, argv = keyword :: raws
      ∧ tables.resolve keyword = some c ∧ c.keyword ∈ keepers
      ∧ ∀ raw ∈ raws, raw.toList.head? ≠ some '&' := by
  cases argv with
  | nil => exact nomatch h
  | cons keyword raws =>
    cases hresolve : tables.resolve keyword with
    | none =>
      unfold isIdle at h
      dsimp only at h
      rw [hresolve] at h
      exact nomatch h
    | some c =>
      rw [isIdle_of_resolve hresolve] at h
      obtain ⟨hkeeper, hplain⟩ := Bool.and_eq_true_iff.mp h
      refine ⟨keyword, raws, c, rfl, hresolve,
        List.contains_iff_mem.mp hkeeper, fun raw hraw => ?_⟩
      exact bne_iff_ne.mp (List.all_eq_true.mp hplain raw hraw)

/-- **Whatever a command line that is not idle is read as**, the routine is
blind: a line of the three commands then has a word for their slot. -/
theorem blind_of_not_idle {keyword : String} {raws : List String}
    {c : Command Handler} (hresolve : tables.resolve keyword = some c)
    (hidle : isIdle (keyword :: raws) = false) {r q : Run τ ω}
    {i : Invocation}
    (hread : Coercion.invocation keyword c.slots raws r = (.ok i, q)) :
    Blind τ ω (c.action i) := by
  have hc := Tables.mem_commands_of_resolve hresolve
  by_cases hkeeper : c.keyword ∈ keepers
  · obtain ⟨slot, hslots, hgiven⟩ := blind_given (τ := τ) (ω := ω) hc hkeeper
    cases raws with
    | nil =>
      -- without a word there is no index either
      rw [isIdle_of_resolve hresolve, List.contains_iff_mem.mpr hkeeper]
        at hidle
      exact nomatch hidle
    | cons raw raws =>
      rw [hslots] at hread
      obtain ⟨a, rfl, hkind⟩ := Coercion.exists_of_invocation_one hread
      exact hgiven keyword a hkind
  · exact blind hc hkeeper i

end Standard

/-- **A command line that is not idle** cannot tell what the settings are
that are only kept: it goes the same way without them. -/
theorem Run.dispatch_forget {keyword : String} {raws : List String}
    (hidle : Standard.isIdle (keyword :: raws) = false) {r r' : Run τ ω}
    (h : r.forget = r'.forget) :
    (Run.dispatch Standard.tables keyword raws r).1
        = (Run.dispatch Standard.tables keyword raws r').1
      ∧ (Run.dispatch Standard.tables keyword raws r).2.forget
        = (Run.dispatch Standard.tables keyword raws r').2.forget := by
  unfold Run.dispatch
  cases hresolve : Standard.tables.resolve keyword with
  | none => exact ⟨rfl, h⟩
  | some c =>
    obtain ⟨heq, hnext⟩ := Coercion.invocation_alike Run.alike_forget h
      keyword c.slots raws
    obtain ⟨result, q, q', hq, hq'⟩ := exists_of_fst_eq heq
    rw [hq, hq'] at hnext
    dsimp only
    unfold Run.invoke
    rw [hq, hq']
    cases result with
    | error e => exact ⟨rfl, hnext⟩
    | ok i =>
      obtain ⟨heq, hend⟩ := Standard.blind_of_not_idle hresolve hidle hq
        (Standard.tables.map fun _ => ()) hnext
      obtain ⟨result, p, p', hp, hp'⟩ := exists_of_fst_eq heq
      dsimp only
      rw [hp, hp'] at hend ⊢
      cases result with
      | error e => exact ⟨rfl, hend⟩
      | ok _ => exact ⟨rfl, hend⟩

end NtpQuery
