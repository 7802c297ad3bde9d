import NtpQuery.Proofs.Client.Course

/-!
# Settings that are only kept

A client keeps a delay, a key and a switch for authentication, and shows
them when asked. It does nothing else with them. `Client.forget` is the
client with these three as they are at the start. Whatever is done with a
client, it comes to the same if they are forgotten before: choosing the
server, queries and reading the list of associations have the same result,
leave the same in the buffer, and differ afterwards in the three settings
only.
-/

namespace NtpQuery

variable {τ : Type}

namespace Client

/-- What a client remembers, but for the settings that are only kept. -/
def State.forget (s : State) : State :=
  { s with delay := 0, authenticate := false, key := none }

/-- **The client without the settings that are only kept.** -/
def forget (c : Client τ) : Client τ :=
  c.modify State.forget

/-- What an operation leaves behind, but for those settings. -/
def Outcome.forget {α : Type} (o : Outcome τ α) : Outcome τ α :=
  { o with client := o.client.forget }

/-- **Clients that differ in the settings only that are only kept**: the
delay, the switch for authentication and the key. -/
structure SameButKept (c c' : Client τ) : Prop where
  /-- All else that they remember is the same. -/
  state : c.state = { c'.state with
    delay := c.state.delay
    authenticate := c.state.authenticate
    key := c.state.key }
  /-- The defaults are the same. -/
  defaults : c.defaults = c'.defaults
  /-- The transports are the same, with all that they have on record. -/
  transport : c.transport = c'.transport

/-- They are the same if these settings are forgotten. -/
theorem sameButKept_of_forget {c c' : Client τ}
    (h : c.forget = c'.forget) : c.SameButKept c' := by
  obtain ⟨s, d, t⟩ := c
  obtain ⟨s', d', t'⟩ := c'
  obtain ⟨hstate, rfl, rfl⟩ : s.forget = s'.forget ∧ d = d' ∧ t = t' :=
    Client.mk.inj h
  have hkept : ∀ s : State, s = { s.forget with
      delay := s.delay, authenticate := s.authenticate, key := s.key } :=
    fun _ => rfl
  refine ⟨(hkept s).trans ?_, rfl, rfl⟩
  rw [hstate]
  rfl

variable [Transport τ] {c : Client τ} {w : World}

/-- Turning to a server. -/
theorem forget_turnTo (c : Client τ) (host : Host)
    (family : AddressFamily) :
    c.forget.turnTo host family = (c.turnTo host family).forget := by
  unfold turnTo
  by_cases hsame : c.state.host.map (·.addr) = some host.addr
  · rw [if_pos hsame, if_pos (show c.forget.state.host.map (·.addr)
      = some host.addr from hsame)]
    rfl
  · rw [if_neg hsame, if_neg (show ¬ c.forget.state.host.map (·.addr)
      = some host.addr from hsame)]
    rfl

/-- Choosing the server. -/
theorem forget_selectHost (w : World) (name : String)
    (family : AddressFamily) (c : Client τ) :
    c.forget.selectHost w name family
      = ((c.selectHost w name family).1,
        (c.selectHost w name family).2.forget) := by
  unfold selectHost
  rw [show c.forget.locate w name family = c.locate w name family from rfl]
  cases c.locate w name family with
  | error e => rfl
  | ok addr =>
    dsimp only
    rw [forget_turnTo]

/-- Finding the address to send to. -/
theorem forget_serverAddress (w : World) (c : Client τ) :
    c.forget.serverAddress w
      = ((c.serverAddress w).1, (c.serverAddress w).2.forget) := by
  unfold serverAddress
  rw [show c.forget.state.host = c.state.host from rfl]
  cases c.state.host with
  | some host => rfl
  | none =>
    dsimp only
    rw [show c.forget.locate w c.forget.defaults.host c.forget.state.family
      = c.locate w c.defaults.host c.state.family from rfl]
    cases c.locate w c.defaults.host c.state.family with
    | error e => rfl
    | ok addr =>
      dsimp only
      rw [← forget_turnTo]
      rfl

/-- **Asking the server.** -/
theorem forget_query (w : World) (opcode : Opcode) (assid : UInt16)
    (data scratch : Bytes) (c : Client τ) :
    c.forget.query w opcode assid data scratch
      = (c.query w opcode assid data scratch).forget := by
  unfold query
  rw [forget_serverAddress]
  rcases c.serverAddress w with ⟨e | peer, d⟩
  · rfl
  · -- the header and the waits are read off settings that are not forgotten
    have hdrawn : d.forget.modify State.drawSequence
        = (d.modify State.drawSequence).forget := rfl
    dsimp only
    rw [hdrawn]
    generalize d.modify State.drawSequence = d
    split
    · rfl
    · rw [show d.forget.state.version = d.state.version from rfl,
        show d.forget.state.sequence = d.state.sequence from rfl]
      split
      · rfl
      · rfl

/-- **Reading the list of associations anew.** -/
theorem forget_refresh (w : World) (scratch : Bytes) (c : Client τ) :
    c.forget.refresh w scratch = (c.refresh w scratch).forget := by
  unfold refresh
  rw [forget_query]
  rcases c.query w .readStatus 0 [] scratch with ⟨e | response, b, d⟩
  · rfl
  · dsimp only [Outcome.forget]
    cases readAssociations response.data with
    | none => rfl
    | some list => rfl

end Client

namespace Setting

/-- What a setting makes of a client depends on the other settings that are
only kept as little. -/
theorem forget_apply (x : Setting) (s : Client.State) :
    (x.apply s).forget = (x.apply s.forget).forget := by
  cases x <;> rfl

end Setting

end NtpQuery
