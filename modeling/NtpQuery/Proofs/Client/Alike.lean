import NtpQuery.Proofs.Client.Collect
import NtpQuery.Proofs.Client.Host
import NtpQuery.Proofs.Net.Alike
import NtpQuery.Proofs.Program

/-!
# Clients that cannot be told apart

Two clients that remember the same and talk through alike transports are
alike (`Client.Alike`): each of their operations has the same result in
both, and leaves them alike.

A client receives into a buffer that is lent to it, and reads of it no
more than the datagram that has just come. So the two may be lent
different buffers, as long as these have the same length: a query has the
same result, and the buffers keep their length (`Client.Alike.query`).

For one request less is enough: what comes through the two transports must
mean the same to that request (`Client.Meets`). The buffers may then differ
in length, if the datagrams that are cut to them differ in nothing that is
read, and the second transport may bring the client datagrams that it
passes over (`Client.Serves`). The query has the same outcome still
(`Client.Alike.query_of_meets`).
-/

namespace NtpQuery

/-- **Worlds that are alike** to a client: it looks at the clock and asks
the name resolver, and takes no notice of the limit on open files and of the
memory that there is. -/
structure World.Alike (w w' : World) : Prop where
  /-- The time is the same. -/
  now : w.now = w'.now
  /-- The name resolver gives the same answers. -/
  hosts : w.hosts = w'.hosts

namespace World.Alike

variable {w w' : World}

theorem refl (w : World) : w.Alike w :=
  ⟨rfl, rfl⟩

/-- Hosts have the same addresses in them. -/
theorem resolve (h : w.Alike w') (family : AddressFamily) (name : String) :
    w.resolve family name = w'.resolve family name := by
  unfold World.resolve World.lookup
  rw [h.hosts]

end World.Alike

variable {τ τ' : Type} [Transport τ] [Transport τ'] {R : τ → τ' → Prop}

namespace Client

section Worlds

variable {w w' : World}

omit [Transport τ] in
/-- A client finds the same address for a host in worlds that are alike. -/
theorem locate_congr (hw : w.Alike w') (name : String)
    (family : AddressFamily) (c : Client τ) :
    c.locate w name family = c.locate w' name family := by
  unfold locate
  rw [hw.resolve]

/-- It turns to the same server. -/
theorem selectHost_congr (hw : w.Alike w') (name : String)
    (family : AddressFamily) (c : Client τ) :
    c.selectHost w name family = c.selectHost w' name family := by
  unfold selectHost
  rw [locate_congr hw]

/-- **It makes the same query.** -/
theorem query_congr (hw : w.Alike w') (opcode : Opcode) (assid : UInt16)
    (data scratch : Bytes) (c : Client τ) :
    c.query w opcode assid data scratch
      = c.query w' opcode assid data scratch := by
  unfold query serverAddress
  rw [locate_congr hw]

/-- It reads the same list of associations. -/
theorem refresh_congr (hw : w.Alike w') (scratch : Bytes) (c : Client τ) :
    c.refresh w scratch = c.refresh w' scratch := by
  unfold refresh
  rw [query_congr hw]

end Worlds

omit [Transport τ] [Transport τ'] in
/-- **Clients that are alike**: they remember the same and have the same
defaults, and their transports are related. -/
structure Alike (R : τ → τ' → Prop) (c : Client τ) (c' : Client τ') :
    Prop where
  /-- They remember the same. -/
  state : c.state = c'.state
  /-- They return to the same. -/
  defaults : c.defaults = c'.defaults
  /-- Their transports are related. -/
  transport : R c.transport c'.transport

omit [Transport τ] [Transport τ'] in
/-- **Outcomes that are alike**, when two buffers were lent. -/
structure Outcome.Alike {α : Type} (R : τ → τ' → Prop)
    (scratch scratch' : Bytes) (o : Outcome τ α) (o' : Outcome τ' α) :
    Prop where
  /-- The result is the same. -/
  result : o.result = o'.result
  /-- The clients are alike. -/
  client : o.client.Alike R o'.client
  /-- The first buffer has kept its length. -/
  length : o.scratch.length = scratch.length
  /-- So has the second. -/
  length' : o'.scratch.length = scratch'.length

/-- **What is received means the same** to a request: the wait has failed
in the same way, or two datagrams have come that are given one verdict. -/
inductive SameMeaning (opcode : Opcode) (sequence : UInt16) :
    Except NetError Bytes → Except NetError Bytes → Prop where
  /-- The wait has failed. -/
  | error (e : NetError) : SameMeaning opcode sequence (.error e) (.error e)
  /-- A datagram has come. -/
  | datagram {d d' : Bytes} :
    verdict opcode sequence d = verdict opcode sequence d' →
    SameMeaning opcode sequence (.ok d) (.ok d')

theorem SameMeaning.of_eq {opcode : Opcode} {sequence : UInt16}
    {result result' : Except NetError Bytes} (h : result = result') :
    SameMeaning opcode sequence result result' := by
  subst h
  cases result with
  | error e => exact .error e
  | ok d => exact .datagram rfl

/-- **Transports through which a request meets with the same** whenever
they are related, with buffers of `n` and of `n'` bytes. Receiving through
the second may take longer: when it has passed over some datagrams, it
receives what means the same as what the first receives. -/
structure Meets (R : τ → τ' → Prop) (n n' : Nat) (opcode : Opcode)
    (sequence : UInt16) : Prop where
  /-- Sending has the same result, and leaves them related. -/
  send : ∀ {t t'}, R t t' → ∀ peer datagram,
    (Transport.send t peer datagram).1 = (Transport.send t' peer datagram).1
      ∧ R (Transport.send t peer datagram).2
        (Transport.send t' peer datagram).2
  /-- Closing leaves them related. -/
  close : ∀ {t t'}, R t t' → R (Transport.close t) (Transport.close t')
  /-- Receiving comes to what means the same, and leaves them related. -/
  recv : ∀ {t t'}, R t t' → ∀ first further a {scratch : Bytes},
    scratch.length = n' →
    ∃ passed u', passed.length = n'
      ∧ collect opcode sequence first further a scratch t'
        = collect opcode sequence first further a passed u'
      ∧ SameMeaning opcode sequence
        (Transport.recv t n (patience first further a)).1
        (Transport.recv u' n' (patience first further a)).1
      ∧ R (Transport.recv t n (patience first further a)).2
        (Transport.recv u' n' (patience first further a)).2

/-- **Transports that serve a request alike** whenever they are related.
Receiving through the second may take longer: when it has passed over some
datagrams, it receives what the first receives. -/
structure Serves (R : τ → τ' → Prop) (opcode : Opcode)
    (sequence : UInt16) : Prop where
  /-- Sending has the same result, and leaves them related. -/
  send : ∀ {t t'}, R t t' → ∀ peer datagram,
    (Transport.send t peer datagram).1 = (Transport.send t' peer datagram).1
      ∧ R (Transport.send t peer datagram).2
        (Transport.send t' peer datagram).2
  /-- Closing leaves them related. -/
  close : ∀ {t t'}, R t t' → R (Transport.close t) (Transport.close t')
  /-- Receiving comes to the same, and leaves them related. -/
  recv : ∀ {t t'}, R t t' → ∀ first further a scratch,
    ∃ passed u', passed.length = scratch.length
      ∧ collect opcode sequence first further a scratch t'
        = collect opcode sequence first further a passed u'
      ∧ (Transport.recv t scratch.length (patience first further a)).1
        = (Transport.recv u' scratch.length (patience first further a)).1
      ∧ R (Transport.recv t scratch.length (patience first further a)).2
        (Transport.recv u' scratch.length (patience first further a)).2

/-- Transports that cannot be told apart serve every request alike. -/
theorem Serves.of_alike (hR : Transport.Alike R) (opcode : Opcode)
    (sequence : UInt16) : Serves R opcode sequence where
  send := hR.send
  close := hR.close
  recv {_ t'} ht first further a scratch :=
    ⟨scratch, t', rfl, rfl,
      hR.recv ht scratch.length (patience first further a)⟩

section Meeting

variable {opcode : Opcode} {sequence : UInt16} {n n' : Nat}

/-- What serves a request alike, serves it alike with buffers of any one
length. -/
theorem Serves.meets (hS : Serves R opcode sequence) (n : Nat) :
    Meets R n n opcode sequence where
  send := hS.send
  close := hS.close
  recv ht first further a scratch hscratch := by
    obtain ⟨passed, u', hpassed, hpass, heq, hnext⟩ :=
      hS.recv ht first further a scratch
    rw [hscratch] at hpassed heq hnext
    exact ⟨passed, u', hpassed, hpass, .of_eq heq, hnext⟩

/-- **What has been received** through such transports is the same. -/
theorem collect_alike (hM : Meets R n n' opcode sequence)
    (first further : UInt64) (a : Assembly) {scratch scratch' : Bytes}
    (hlen : scratch.length = n) (hlen' : scratch'.length = n') {t : τ}
    {t' : τ'} (ht : R t t') :
    let o := collect opcode sequence first further a scratch t
    let o' := collect opcode sequence first further a scratch' t'
    o.1 = o'.1 ∧ R o.2.2 o'.2.2 ∧ o.2.1.length = n
      ∧ o'.2.1.length = n' := by
  induction hp : Transport.pending t using Nat.strongRecOn
    generalizing a scratch scratch' t t' with
  | ind p ih =>
    subst hp
    obtain ⟨passed, u', hpassed, hpass, hmeaning, hnext⟩ :=
      hM.recv ht first further a hlen'
    rw [hpass]
    obtain ⟨result, u, h⟩ : ∃ result u, Transport.recv t n
      (patience first further a) = (result, u) := ⟨_, _, rfl⟩
    obtain ⟨result', v', h'⟩ : ∃ result' v', Transport.recv u' n'
      (patience first further a) = (result', v') := ⟨_, _, rfl⟩
    rw [h, h'] at hnext hmeaning
    rw [← hlen] at h
    rw [← hpassed] at h'
    cases hmeaning with
    | error e =>
      rw [collect_of_error h, collect_of_error h']
      exact ⟨rfl, hnext, hlen, hpassed⟩
    | @datagram d d' hverdict =>
      have hless : Transport.pending u < Transport.pending t := by
        have hlt := Transport.pending_recv_lt (congrArg Prod.fst h)
        rwa [h] at hlt
      -- both buffers keep their length, so they are alike again
      have hover : (Bytes.overlay scratch d).length = n :=
        (Bytes.length_overlay scratch d).trans hlen
      have hover' : (Bytes.overlay passed d').length = n' :=
        (Bytes.length_overlay passed d').trans hpassed
      have hagain := fun b => ih _ hless b hover hover' hnext rfl
      rw [collect_of_datagram h, collect_of_datagram h', hverdict]
      split
      · exact hagain a
      · exact ⟨rfl, hnext, hover, hover'⟩
      · split
        · exact ⟨rfl, hnext, hover, hover'⟩
        · split
          · exact ⟨rfl, hnext, hover, hover'⟩
          · exact hagain _

/-- **What has been attempted** through such transports is the same. -/
theorem attempt_alike (hM : Meets R n n' opcode sequence)
    (first further : UInt64) (peer : SocketAddr)
    (request : Bytes) (retries : Nat) {scratch scratch' : Bytes}
    (hlen : scratch.length = n) (hlen' : scratch'.length = n') {t : τ}
    {t' : τ'} (ht : R t t') :
    let o := attempt opcode sequence first further peer request retries
      scratch t
    let o' := attempt opcode sequence first further peer request retries
      scratch' t'
    o.1 = o'.1 ∧ R o.2.2 o'.2.2 ∧ o.2.1.length = n
      ∧ o'.2.1.length = n' := by
  induction retries using Nat.strongRecOn
    generalizing scratch scratch' t t' with
  | ind retries ih =>
    obtain ⟨heq, hsent⟩ := hM.send ht peer request
    obtain ⟨result, u, u', h, h'⟩ := exists_of_fst_eq heq
    unfold attempt
    rw [h, h'] at hsent ⊢
    cases result with
    | error e => exact ⟨rfl, hsent, hlen, hlen'⟩
    | ok _ =>
      have hcollect := collect_alike hM first further .empty hlen hlen' hsent
      dsimp only at hcollect ⊢
      generalize collect opcode sequence first further .empty scratch u = p
        at hcollect ⊢
      generalize collect opcode sequence first further .empty scratch' u' = p'
        at hcollect ⊢
      obtain ⟨r, b, v⟩ := p
      obtain ⟨r', b', v'⟩ := p'
      obtain ⟨rfl, hv, hb, hb'⟩ := hcollect
      cases r with
      | ok r => exact ⟨rfl, hv, hb, hb'⟩
      | error e =>
        cases e with
        | timeout =>
          cases retries with
          | zero => exact ⟨rfl, hv, hb, hb'⟩
          | succ retries => exact ih retries (Nat.lt_succ_self _) hb hb' hv
        | _ => exact ⟨rfl, hv, hb, hb'⟩

end Meeting

namespace Alike

variable {c : Client τ} {c' : Client τ'}

omit [Transport τ] in
/-- A client is alike itself. -/
theorem refl (c : Client τ) : c.Alike Eq c :=
  ⟨rfl, rfl, rfl⟩

omit [Transport τ] in
/-- Clients with the same transport are alike only if they are the
same. -/
theorem eq {c c' : Client τ} (h : c.Alike Eq c') : c = c' := by
  obtain ⟨state, defaults, transport⟩ := c
  obtain ⟨rfl, rfl, rfl⟩ := h
  rfl

omit [Transport τ] [Transport τ'] in
/-- Changing what both remember keeps them alike. -/
theorem modify (h : c.Alike R c') (f : State → State) :
    (c.modify f).Alike R (c'.modify f) :=
  ⟨congrArg f h.state, h.defaults, h.transport⟩

/-- **Taking on other defaults** keeps them alike. -/
theorem adopt
    (hclose : ∀ {t t'}, R t t' → R (Transport.close t) (Transport.close t'))
    (h : c.Alike R c') (d : Defaults) : (c.adopt d).Alike R (c'.adopt d) :=
  ⟨rfl, rfl, hclose h.transport⟩

/-- So does a reset. -/
theorem reset
    (hclose : ∀ {t t'}, R t t' → R (Transport.close t) (Transport.close t'))
    (h : c.Alike R c') : c.reset.Alike R c'.reset :=
  ⟨congrArg State.ofDefaults h.defaults, h.defaults, hclose h.transport⟩

omit [Transport τ] [Transport τ'] in
/-- They find the same address for a host. -/
theorem locate (h : c.Alike R c') (w : World) (name : String)
    (family : AddressFamily) :
    c.locate w name family = c'.locate w name family := by
  unfold Client.locate
  rw [h.defaults]

/-- **Turning to a server** keeps them alike. -/
theorem turnTo
    (hclose : ∀ {t t'}, R t t' → R (Transport.close t) (Transport.close t'))
    (h : c.Alike R c') (host : Host) (family : AddressFamily) :
    (c.turnTo host family).Alike R (c'.turnTo host family) := by
  unfold Client.turnTo
  rw [h.state]
  refine modify ?_ _
  split
  · exact h
  · exact ⟨rfl, h.defaults, hclose h.transport⟩

/-- **Choosing the server** does the same to both. -/
theorem selectHost
    (hclose : ∀ {t t'}, R t t' → R (Transport.close t) (Transport.close t'))
    (h : c.Alike R c') (w : World) (name : String)
    (family : AddressFamily) :
    (c.selectHost w name family).1 = (c'.selectHost w name family).1
      ∧ (c.selectHost w name family).2.Alike R
        (c'.selectHost w name family).2 := by
  unfold Client.selectHost
  rw [h.locate]
  cases c'.locate w name family with
  | error e => exact ⟨rfl, h⟩
  | ok addr => exact ⟨rfl, h.turnTo hclose _ family⟩

/-- **Finding the address to send to** does the same to both. -/
theorem serverAddress
    (hclose : ∀ {t t'}, R t t' → R (Transport.close t) (Transport.close t'))
    (h : c.Alike R c') (w : World) :
    (c.serverAddress w).1 = (c'.serverAddress w).1
      ∧ (c.serverAddress w).2.Alike R (c'.serverAddress w).2 := by
  unfold Client.serverAddress
  rw [h.state, h.locate, h.defaults]
  cases c'.state.host with
  | some host => exact ⟨rfl, h⟩
  | none =>
    dsimp only
    cases c'.locate w c'.defaults.host c'.state.family with
    | error e => exact ⟨rfl, h⟩
    | ok addr => exact ⟨rfl, h.turnTo hclose _ _⟩

/-- **A query** has the same outcome in both if its request meets with the
same through their transports. -/
theorem query_of_meets (opcode : Opcode) {scratch scratch' : Bytes}
    (hM : Meets R scratch.length scratch'.length opcode
      (c.state.sequence + 1)) (h : c.Alike R c') (w : World)
    (assid : UInt16) (data : Bytes) :
    (c.query w opcode assid data scratch).Alike R scratch scratch'
      (c'.query w opcode assid data scratch') := by
  obtain ⟨heq, hfound⟩ := h.serverAddress hM.close w
  have hsequence := (serverAddress_frame w c).1
  obtain ⟨result, d, d', hd, hd'⟩ := exists_of_fst_eq heq
  unfold Client.query
  rw [hd, hd'] at hfound
  rw [hd] at hsequence
  rw [hd, hd']
  cases result with
  | error e => exact ⟨rfl, hfound, rfl, rfl⟩
  | ok peer =>
    dsimp only at hfound hsequence ⊢
    have hdrawn := hfound.modify State.drawSequence
    have hnumber : (d.modify State.drawSequence).state.sequence
        = c.state.sequence + 1 := congrArg (· + 1) hsequence
    rw [← hdrawn.state, ← hdrawn.defaults, hnumber]
    split
    · exact ⟨rfl, hdrawn, rfl, rfl⟩
    · split
      · exact ⟨rfl, hdrawn, rfl, rfl⟩
      next request _ =>
        obtain ⟨hresult, htransport, hb, hb'⟩ := attempt_alike hM
          (d.modify State.drawSequence).state.timeout
          (d.modify State.drawSequence).state.secondaryTimeout peer request
          (d.modify State.drawSequence).defaults.retries.toNat rfl rfl
          hdrawn.transport
        exact ⟨hresult, ⟨rfl, rfl, htransport⟩, hb, hb'⟩

/-- It has if the transports serve its request alike and the buffers have
the same length. -/
theorem query_of_serves (opcode : Opcode)
    (hS : Serves R opcode (c.state.sequence + 1)) (h : c.Alike R c')
    (w : World) (assid : UInt16) (data : Bytes)
    {scratch scratch' : Bytes} (hlen : scratch'.length = scratch.length) :
    (c.query w opcode assid data scratch).Alike R scratch scratch'
      (c'.query w opcode assid data scratch') :=
  h.query_of_meets opcode (hlen ▸ hS.meets scratch'.length) w assid data

/-- Every query has if the transports cannot be told apart. -/
theorem query (hR : Transport.Alike R) (h : c.Alike R c') (w : World)
    (opcode : Opcode) (assid : UInt16) (data : Bytes)
    {scratch scratch' : Bytes} (hlen : scratch'.length = scratch.length) :
    (c.query w opcode assid data scratch).Alike R scratch scratch'
      (c'.query w opcode assid data scratch') :=
  h.query_of_serves opcode (Serves.of_alike hR opcode _) w assid data hlen

end Alike

/-- **Reading the list of associations anew** has the same outcome in both
if the query for it has. -/
theorem Outcome.Alike.refresh {c : Client τ} {c' : Client τ'} {w : World}
    {scratch scratch' : Bytes}
    (h : (c.query w .readStatus 0 [] scratch).Alike R scratch scratch'
      (c'.query w .readStatus 0 [] scratch')) :
    (c.refresh w scratch).Alike R scratch scratch'
      (c'.refresh w scratch') := by
  obtain ⟨hresult, hclient, hb, hb'⟩ := h
  unfold Client.refresh
  dsimp only
  rw [hresult]
  split
  · exact ⟨rfl, hclient, hb, hb'⟩
  · split
    · exact ⟨rfl, hclient, hb, hb'⟩
    next list _ =>
      have hlist := hclient.modify fun s => { s with associations := list }
      exact ⟨rfl, hlist, hb, hb'⟩

end Client

end NtpQuery
