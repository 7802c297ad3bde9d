import NtpQuery.Command.Standard
import NtpQuery.Proofs.Client.Course
import NtpQuery.Proofs.Command.Calls

/-!
# What commands change

A routine can do more than a command ever should. It can replace all that
the client remembers, the server with its associations and the sequence
number included, it can reset the client, and it can turn to the session
that is running it. The commands that there are do none of this: they make
no calls on their session, and what they make the client remember is what
it has remembered, but for one `Setting`.

Which settings a command makes is said by a predicate `K`: each lemma here
asks for the settings of its command and no more. The extended commands
make none, for they only ask (`Standard.asks`). All commands together make
admissible settings only (`Standard.settles`). So they leave the client's
`Bearings` alone (`Standard.steady`).
-/

namespace NtpQuery

variable {τ ω : Type}

namespace CommandCall

/-- **A call that makes settings**, if any, of a kind: it resets nothing,
it is no call on the session, and what it makes the client remember differs
in such a setting. -/
def Settles (K : Setting → Prop) (c : CommandCall) (r : Run τ ω) : Prop :=
  match c with
  | .setState s => ∃ x, K x ∧ s = x.apply r.client.state
  | .adopt _ | .reset | .session _ => False
  | _ => True

/-- **A call that only asks**: it writes, reads what there is to read, or
asks the server. -/
def Asks (c : CommandCall) (_ : Run τ ω) : Prop :=
  match c with
  | .write _ | .state | .query _ _ _ | .refresh | .clock => True
  | _ => False

/-- A call that only asks makes no settings. -/
theorem Asks.settles {K : Setting → Prop} {c : CommandCall}
    {r : Run τ ω} (h : c.Asks r) : c.Settles K r := by
  cases c with
  | setState _ | adopt _ | reset | session _ => exact h.elim
  | _ => trivial

/-- **A steady call**: it is no call on the session, and what it makes the
client remember has the bearings that the client has. -/
def Steady (c : CommandCall) (r : Run τ ω) : Prop :=
  match c with
  | .setState s => s.bearings = r.client.state.bearings
  | .session _ => False
  | _ => True

/-- A call that makes settings is steady. -/
theorem Settles.steady {K : Setting → Prop} {c : CommandCall}
    {r : Run τ ω} (h : c.Settles K r) : c.Steady r := by
  cases c with
  | setState s =>
    obtain ⟨x, -, rfl⟩ := h
    exact Client.bearings_apply x r.client.state
  | session c => exact h.elim
  | _ => trivial

end CommandCall

variable [Transport τ] [Workspace ω] {K : Setting → Prop}

namespace Routine

/-- **A routine that makes settings of a kind only.** -/
abbrev Settles (τ ω : Type) [Transport τ] [Workspace ω] (K : Setting → Prop)
    {α : Type} (a : Routine α) : Prop :=
  Only (τ := τ) (ω := ω) (CommandCall.Settles K) a

/-- **A routine that only asks.** -/
abbrev Asks (τ ω : Type) [Transport τ] [Workspace ω] {α : Type}
    (a : Routine α) : Prop :=
  Only (τ := τ) (ω := ω) CommandCall.Asks a

/-- A routine that only asks makes no settings. -/
theorem Asks.settles {α : Type} {a : Routine α} (h : Asks τ ω a) :
    Settles τ ω K a :=
  h.mono fun _ _ => CommandCall.Asks.settles

/-- **A routine that makes steady calls only.** -/
abbrev Steady (τ ω : Type) [Transport τ] [Workspace ω] {α : Type}
    (a : Routine α) : Prop :=
  Only (τ := τ) (ω := ω) CommandCall.Steady a

theorem asks_print (s : String) : Asks τ ω (print s) :=
  Only.print (fun _ _ => trivial) s

theorem asks_printLine (s : String) : Asks τ ω (printLine s) :=
  Only.printLine (fun _ _ => trivial) s

theorem asks_printLines (lines : List String) :
    Asks τ ω (lines.forM printLine) :=
  Only.forM asks_printLine

theorem asks_state : Asks τ ω state :=
  Only.ask _ fun _ => trivial

theorem asks_query (opcode : Opcode) (assid : UInt16) (data : Bytes) :
    Asks τ ω (query opcode assid data) :=
  Only.query (fun _ _ _ _ => trivial) opcode assid data

theorem asks_refresh : Asks τ ω refresh :=
  Only.refresh fun _ => trivial

theorem settles_printLine (s : String) : Settles τ ω K (printLine s) :=
  (asks_printLine s).settles

theorem settles_printLines (lines : List String) :
    Settles τ ω K (lines.forM printLine) :=
  (asks_printLines lines).settles

theorem settles_state : Settles τ ω K state :=
  asks_state.settles

theorem settles_modify {x : Setting} (hx : K x) :
    Settles τ ω K (modify x.apply) :=
  Only.modify (fun _ => trivial) fun _ => ⟨x, hx, rfl⟩

end Routine

open Routine

namespace Settings

theorem settles_help (i : Invocation) : Settles τ ω K (help i) := by
  refine Only.bind (Only.ask _ fun _ => trivial) fun t => ?_
  cases i.text? 0 with
  | none =>
    exact (settles_printLine _).bind fun _ => settles_printLines _
  | some topic =>
    dsimp only
    cases Tables.resolve t topic with
    | none => exact settles_printLine _
    | some c =>
      exact (settles_printLine _).bind fun _ => settles_printLine _

theorem settles_timeout (hK : ∀ ms, K (.timeout ms)) (i : Invocation) :
    Settles τ ω K (timeout i) := by
  unfold timeout
  cases i.unsigned? 0 with
  | none => exact settles_state.bind fun _ => settles_printLine _
  | some ms => exact settles_modify (hK ms)

theorem settles_delay (hK : ∀ ms, K (.delay ms)) (i : Invocation) :
    Settles τ ω K (delay i) := by
  unfold delay
  cases i.signed? 0 with
  | none => exact settles_state.bind fun _ => settles_printLine _
  | some ms => exact settles_modify (hK ms)

theorem settles_chooseHost (name : String) (family : AddressFamily) :
    Settles τ ω K (chooseHost name family) :=
  (Only.selectHost (fun _ _ _ => trivial) name family).bind
    fun _ => settles_printLine _

theorem settles_host (i : Invocation) : Settles τ ω K (host i) := by
  unfold host
  split
  · refine settles_state.bind fun s => ?_
    cases s.host with
    | none => exact settles_printLine _
    | some host => exact settles_printLine _
  · split
    · exact settles_chooseHost _ _
    · exact Only.throw _
    · exact settles_chooseHost _ _

theorem settles_setSwitch {x : Bool → Setting} (hK : ∀ on, K (x on))
    (i : Invocation) :
    Settles τ ω K (setSwitch i fun on => (x on).apply) := by
  unfold setSwitch
  cases i.text? 0 with
  | none => exact Only.pure ()
  | some value =>
    dsimp only
    cases switchValue value with
    | error e => exact Only.throw e
    | ok on => exact settles_modify (hK on)

theorem settles_hostnames (hK : ∀ on, K (.showHostnames on))
    (i : Invocation) : Settles τ ω K (hostnames i) := by
  refine Only.bind (settles_setSwitch hK i) fun _ =>
    settles_state.bind fun s => ?_
  split
  · exact settles_printLine _
  · exact settles_printLine _

theorem settles_authenticate (hK : ∀ on, K (.authenticate on))
    (i : Invocation) : Settles τ ω K (authenticate i) := by
  refine Only.bind (settles_setSwitch hK i) fun _ =>
    settles_state.bind fun s => ?_
  split
  · exact settles_printLine _
  · exact settles_printLine _

theorem settles_ntpVersion
    (hK : ∀ n, VersionExists n → K (.version n)) (i : Invocation) :
    Settles τ ω K (ntpVersion i) := by
  refine Only.bind ?_ fun _ =>
    settles_state.bind fun _ => settles_printLine _
  unfold setVersion
  cases i.unsigned? 0 with
  | none => exact Only.pure ()
  | some n =>
    dsimp only
    split
    next hn =>
      have hbyte : (UInt8.ofNat n.toNat).toNat = n.toNat :=
        Nat.mod_eq_of_lt (Nat.lt_of_le_of_lt hn.2 (by decide))
      refine settles_modify (hK (UInt8.ofNat n.toNat) ?_)
      rwa [VersionExists, hbyte]
    next => exact Only.throw _

theorem settles_keyId (hK : ∀ k, K (.key k)) (i : Invocation) :
    Settles τ ω K (keyId i) := by
  refine Only.bind ?_ fun _ => settles_state.bind fun s => ?_
  · unfold setKey
    cases i.unsigned? 0 with
    | none => exact Only.pure ()
    | some n =>
      dsimp only
      split
      · exact settles_modify (hK _)
      · exact Only.throw _
  · cases s.key with
    | none => exact settles_printLine _
    | some key => exact settles_printLine _

theorem settles_raw (hK : K (.raw true)) (i : Invocation) :
    Settles τ ω K (raw i) :=
  Only.bind (settles_modify hK) fun _ => settles_printLine _

theorem settles_cooked (hK : K (.raw false)) (i : Invocation) :
    Settles τ ω K (cooked i) :=
  Only.bind (settles_modify hK) fun _ => settles_printLine _

end Settings

/-! The commands that ask the server do nothing else. -/

namespace Associations

theorem asks_showLast (all : Bool) (i : Invocation) :
    Asks τ ω (showLast all i) :=
  asks_state.bind fun _ => asks_printLines _

theorem asks_showAnew (all : Bool) (i : Invocation) :
    Asks τ ω (showAnew all i) :=
  asks_refresh.bind fun _ => asks_showLast all i

end Associations

namespace Variables

theorem asks_readAndShow (opcode : Opcode) (assid : UInt16)
    (data : Bytes) : Asks τ ω (readAndShow opcode assid data) :=
  (asks_query opcode assid data).bind fun _ =>
    (asks_printLine _).bind fun _ =>
      asks_state.bind fun _ => asks_print _

theorem asks_readAll (i : Invocation) : Asks τ ω (readAll i) := by
  unfold readAll
  cases associationOf i with
  | error e => exact Only.throw e
  | ok assid => exact asks_readAndShow _ _ _

theorem asks_readNamed (opcode : Opcode) (i : Invocation) :
    Asks τ ω (readNamed opcode i) := by
  unfold readNamed
  cases associationOf i with
  | error e => exact Only.throw e
  | ok assid => exact asks_readAndShow _ _ _

end Variables

namespace Peers

theorem asks_showRow (family : AddressFamily) (now : Nat)
    (a : Association) : Asks τ ω (showRow family now a) := by
  refine (asks_query _ _ _).bind fun r => ?_
  split
  · exact Only.pure ()
  · split
    · exact asks_state.bind fun _ => asks_printLine _
    · exact Only.pure ()

theorem asks_showTable (all : Bool) (i : Invocation) :
    Asks τ ω (showTable all i) := by
  refine asks_refresh.bind fun _ => asks_state.bind fun s => ?_
  dsimp only
  split
  · exact asks_printLine _
  · refine (asks_printLines _).bind fun _ => ?_
    refine Only.bind (Only.ask _ fun _ => trivial) fun now => ?_
    exact Only.forM fun a => asks_showRow _ _ a

end Peers

namespace Standard

/-- **The extended commands only ask.** -/
theorem asks {c : Command Handler} (hc : c ∈ extended) (i : Invocation) :
    Asks τ ω (c.action i) := by
  have hall : ∀ c ∈ extended, Asks τ ω (c.action i) := by
    unfold extended
    simp only [List.forall_mem_cons, List.not_mem_nil, false_imp_iff,
      implies_true, and_true]
    -- one for each command, in the order of the table
    exact ⟨Associations.asks_showAnew _ i, Associations.asks_showLast _ i,
      Associations.asks_showAnew _ i, Associations.asks_showLast _ i,
      Variables.asks_readAll i, Variables.asks_readAll i,
      Variables.asks_readNamed _ i, Variables.asks_readNamed _ i,
      Variables.asks_readAll i, Variables.asks_readNamed _ i,
      Variables.asks_readNamed _ i, Peers.asks_showTable _ i,
      Peers.asks_showTable _ i⟩
  exact hall c hc

/-- **Every command makes admissible settings only.** -/
theorem settles {c : Command Handler} (hc : c ∈ tables.commands)
    (i : Invocation) : Settles τ ω Setting.Admissible (c.action i) := by
  have hcore : ∀ c ∈ core, Settles τ ω Setting.Admissible (c.action i) := by
    unfold core
    simp only [List.forall_mem_cons, List.not_mem_nil, false_imp_iff,
      implies_true, and_true]
    -- one for each command, in the order of the table
    exact ⟨Settings.settles_help i, Settings.settles_help i,
      Settings.settles_timeout (fun _ => trivial) i,
      Settings.settles_delay (fun _ => trivial) i,
      Settings.settles_host i,
      Settings.settles_hostnames (fun _ => trivial) i,
      Settings.settles_raw trivial i, Settings.settles_cooked trivial i,
      Settings.settles_authenticate (fun _ => trivial) i,
      Settings.settles_ntpVersion (fun _ hn => hn) i,
      Settings.settles_keyId (fun _ => trivial) i, settles_printLine _⟩
  rcases List.mem_append.mp hc with hc | hc
  · exact hcore c hc
  · exact (asks hc i).settles

/-- **Every command is steady.** -/
theorem steady {c : Command Handler} (hc : c ∈ tables.commands)
    (i : Invocation) : Steady τ ω (c.action i) :=
  (settles hc i).mono fun _ _ => CommandCall.Settles.steady

end Standard

end NtpQuery
