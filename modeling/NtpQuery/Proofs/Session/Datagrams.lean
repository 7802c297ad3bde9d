import NtpQuery.Config.Basic
import NtpQuery.Net.Script
import NtpQuery.Proofs.Client.Sendings
import NtpQuery.Proofs.Session.Queries

/-!
# The datagrams of a session

Nothing is sent in a session but the datagrams of its queries, and each of
them is as it should be: whatever command lines are carried out, with
whatever arguments, and however often the session is opened, closed and
configured (`Session.datagrams_well_formed`).

Two facts carry this through a history. All that is sent is accounted for
by the queries, each of which was made with a version that exists
(`Client.Accounted`). And the queries since the last reset are numbered
from one on (`Client.Numbered`).
-/

namespace NtpQuery

variable {τ : Type} [Transport τ]

/-- The sequence numbers that queries draw, oldest first. -/
def Inquiry.numbers (made : List (Inquiry τ)) : List UInt16 :=
  (made.filter draws).map number

/-- **The numbers from one on**; after 65535 comes zero. -/
def numbering (n : Nat) : List UInt16 :=
  (List.range n).map fun i => UInt16.ofNat (i + 1)

theorem numbering_succ (n : Nat) :
    numbering (n + 1) = numbering n ++ [UInt16.ofNat (n + 1)] := by
  unfold numbering
  rw [List.range_succ, List.map_append]
  rfl

namespace Client

/-! ## What is sent -/

/-- **A client whose sendings are accounted for**: since `old` was sent, it
has sent what its queries send, and the version it claimed in each of them
exists. -/
structure Accounted (old : List (SocketAddr × Bytes))
    (made : List (Inquiry (Traced τ))) (c : Client (Traced τ)) : Prop where
  /-- The version that it claims exists. -/
  version : VersionExists c.state.version
  /-- So does the version that it returns to. -/
  defaults : VersionExists c.defaults.version
  /-- So did the version in each query. -/
  queries : ∀ q ∈ made, VersionExists q.client.state.version
  /-- The queries account for what has been sent. -/
  sent : c.transport.sent = old ++ made.flatMap Inquiry.sendings

namespace Accounted

variable {old : List (SocketAddr × Bytes)}
variable {made : List (Inquiry (Traced τ))} {c : Client (Traced τ)}

/-- **Commands** keep a client's sendings accounted for. -/
theorem upheld (old : List (SocketAddr × Bytes)) :
    Upheld (Accounted (τ := τ) old) where
  query {made} q h := by
    obtain ⟨hversion, hdefaults⟩ := q.outcome_version
    refine ⟨hversion ▸ h.version, hdefaults ▸ h.defaults, fun p hp => ?_, ?_⟩
    · rcases List.mem_append.mp hp with hp | hp
      · exact h.queries p hp
      · rw [List.mem_singleton.mp hp]
        exact h.version
    · rw [q.sent_outcome.1, h.sent, List.append_assoc, List.flatMap_append,
        List.flatMap_singleton]
  list h _ _ _ := ⟨h.version, h.defaults, h.queries, h.sent⟩
  turn {made b} host family h := by
    rcases b.turnTo_cases host family with ⟨-, heq⟩ | ⟨-, heq⟩
    · rw [heq]
      exact ⟨h.version, h.defaults, h.queries, h.sent⟩
    · rw [heq]
      exact ⟨h.version, h.defaults, h.queries,
        (Traced.sent_close b.transport).trans h.sent⟩
  settle hx h :=
    ⟨hx.version_apply h.version, h.defaults, h.queries, h.sent⟩

/-- **Starting again** from defaults with a version that exists does, too:
nothing is sent. -/
theorem adopt (h : c.Accounted old made) {d : Defaults}
    (hd : VersionExists d.version) : (c.adopt d).Accounted old made :=
  ⟨hd, hd, h.queries, (Traced.sent_close c.transport).trans h.sent⟩

/-- So does whatever happens to the transport by itself, as long as its
record stays. -/
theorem incident (h : c.Accounted old made) {t : Traced τ}
    (ht : t.events = c.transport.events) :
    ({ c with transport := t } : Client (Traced τ)).Accounted old made := by
  refine ⟨h.version, h.defaults, h.queries, ?_⟩
  rw [← h.sent]
  unfold Traced.sent
  rw [ht]

end Accounted

/-! ## How queries are numbered -/

/-- **A client whose queries are numbered** from one on: these are the
queries since it last started from defaults. -/
def Numbered (made : List (Inquiry τ)) (c : Client τ) : Prop :=
  ∃ n, Inquiry.numbers made = numbering n
    ∧ c.state.sequence = UInt16.ofNat n

/-- Only the sequence number of the client matters. -/
theorem Numbered.congr {made : List (Inquiry τ)} {c c' : Client τ}
    (h : c.Numbered made) (hsame : c'.state.sequence = c.state.sequence) :
    c'.Numbered made := by
  obtain ⟨n, hnumbers, hlast⟩ := h
  exact ⟨n, hnumbers, hsame.trans hlast⟩

/-- **Commands** go on with the numbers. -/
theorem Numbered.upheld : Upheld (Numbered (τ := τ)) where
  query {made} q h := by
    obtain ⟨n, hnumbers, hlast⟩ := h
    unfold Numbered Inquiry.numbers
    rw [List.filter_append, List.map_append]
    cases hdraws : q.draws with
    | false =>
      refine ⟨n, ?_, ?_⟩
      · rw [List.filter_cons_of_neg (by rw [hdraws]; exact Bool.false_ne_true)]
        exact (List.append_nil _).trans hnumbers
      · rw [Inquiry.outcome_of_not_draws hdraws]
        exact hlast
    | true =>
      have hnext : q.client.state.sequence + 1 = UInt16.ofNat (n + 1) := by
        rw [hlast, UInt16.ofNat_add]
        rfl
      refine ⟨n + 1, ?_, ?_⟩
      · rw [List.filter_cons_of_pos hdraws, numbering_succ, ← hnumbers,
          ← hnext]
        rfl
      · rw [(Inquiry.remembered_of_draws hdraws).1, ← hnext]
        exact congrArg (· + 1) (serverAddress_frame q.world q.client).1
  list h _ _ _ := h.congr rfl
  turn {made b} host family h := by
    rcases b.turnTo_cases host family with ⟨-, heq⟩ | ⟨-, heq⟩
    · exact h.congr (by rw [heq])
    · exact h.congr (by rw [heq])
  settle {made b x} _ h :=
    h.congr (congrArg Bearings.sequence (bearings_apply x b.state))

end Client

/-- The version of a valid configuration exists. -/
theorem Config.versionExists_of_validate {c : Config}
    (h : c.validate = .ok ()) : VersionExists c.client.version := by
  unfold validate at h
  split at h
  · exact nomatch h
  next hnone =>
    have hfaults := List.find?_eq_none.mp hnone
    have hversion := hfaults
      (c.client.version.toNat < oldestVersion
          || newestVersion < c.client.version.toNat,
        "engine.version", versionRange c.client.version.toNat)
      (by simp [faults])
    simpa [VersionExists] using hversion

namespace Session

/-- **A proper step** of a session over a transport that keeps account: a
configuration has a version that exists, and what happens to the transport
by itself leaves its record alone. -/
def Step.Proper : Step (Traced τ) → Prop
  | .call _ (.configure d) => VersionExists d.version
  | .call _ _ => True
  | .incident change => ∀ t, (change t).events = t.events

/-- **A history** keeps the sendings of the client accounted for. -/
theorem accounted_performAll {old : List (SocketAddr × Bytes)}
    {steps : List (Step (Traced τ))} (hsteps : ∀ step ∈ steps, step.Proper)
    {s : Session (Traced τ)} (htables : s.tables = Standard.tables)
    {made : List (Inquiry (Traced τ))} (h : s.client.Accounted old made) :
    (s.performAll steps).client.Accounted old
      (made ++ inquiriesAll steps s) := by
  induction steps generalizing s made with
  | nil => exact Client.none_made h
  | cons step steps ih =>
    have hproper := hsteps step List.mem_cons_self
    have hone : (s.perform step).client.Accounted old
        (made ++ s.inquiries step) := by
      cases hresets : s.resets step with
      | true =>
        obtain ⟨hnone, d, hclient, hd⟩ := perform_of_resets hresets
        rw [hnone, hclient]
        refine Client.none_made (h.adopt ?_)
        rcases hd with rfl | ⟨w, rfl⟩
        · exact h.defaults
        · exact hproper
      | false =>
        refine upheld_perform (Client.Accounted.upheld old) htables h hresets
          ?_
        rintro change rfl
        exact h.incident (hproper s.client.transport)
    have hrest := ih (fun step hstep => hsteps step
      (List.mem_cons_of_mem _ hstep)) ((tables_perform s step).trans htables)
      hone
    rw [List.append_assoc] at hrest
    exact hrest

/-- **A history** numbers the queries since the last reset. -/
theorem numbered_performAll (steps : List (Step τ)) {s : Session τ}
    (htables : s.tables = Standard.tables) {made : List (Inquiry τ)}
    (h : s.client.Numbered made) :
    (s.performAll steps).client.Numbered (sinceReset steps s made) := by
  induction steps generalizing s made with
  | nil => exact h
  | cons step steps ih =>
    refine ih ((tables_perform s step).trans htables) ?_
    cases hresets : s.resets step with
    | true =>
      obtain ⟨-, d, hclient, -⟩ := perform_of_resets hresets
      rw [hclient]
      exact ⟨0, rfl, rfl⟩
    | false =>
      exact upheld_perform Client.Numbered.upheld htables h hresets
        fun _ _ => h.congr rfl

/-- **Every datagram of a session is well formed.** In every history of a
session that starts from, and is configured with, versions that exist: all
that is sent is sent by the queries of command lines. All that one query
sends is the same, and it is a request as it should be. A query whose data
do not fit a message sends nothing, and blames the data once its host has
been found. The queries since the last reset that have found their host are
numbered from one on, modulo 65536. -/
theorem datagrams_well_formed {d : Defaults} (hd : VersionExists d.version)
    (t : Traced τ) {steps : List (Step (Traced τ))}
    (hsteps : ∀ step ∈ steps, step.Proper) :
    let s := new d t Standard.tables
    let made := inquiriesAll steps s
    (s.performAll steps).client.transport.sent
        = t.sent ++ made.flatMap Inquiry.sendings
      ∧ (∀ q ∈ made,
        (∀ x ∈ q.sendings, q.Sends x.1 x.2)
          ∧ (∀ x ∈ q.sendings, ∀ y ∈ q.sendings, x = y)
          ∧ (468 < q.data.length → q.sendings = []
            ∧ (q.draws = true →
              ∃ e, q.outcome.result = .error (.argument e))))
      ∧ ∃ n, Inquiry.numbers (sinceReset steps s []) = numbering n := by
  intro s made
  have hstart : s.client.Accounted t.sent [] :=
    ⟨hd, hd, fun q hq => absurd hq List.not_mem_nil,
      (List.append_nil _).symm⟩
  have haccounted := accounted_performAll hsteps rfl hstart
  have hfirst : s.client.Numbered [] := ⟨0, rfl, rfl⟩
  obtain ⟨n, hnumbers, -⟩ := numbered_performAll steps rfl hfirst
  refine ⟨haccounted.sent, fun q hq => ⟨fun x hx => ?_, fun x hx y hy => ?_,
    q.outcome_of_too_long⟩, n, hnumbers⟩
  · obtain ⟨hpeer, hrequest⟩ := q.sent_outcome.2 x hx
    exact Inquiry.sends_nextRequest (haccounted.queries q hq) hpeer hrequest
  · obtain ⟨hpeer, hrequest⟩ := q.sent_outcome.2 x hx
    obtain ⟨hpeer', hrequest'⟩ := q.sent_outcome.2 y hy
    exact Prod.ext (Except.ok.inj (hpeer.symm.trans hpeer'))
      (Option.some.inj (hrequest.symm.trans hrequest'))

/-- A session is opened, configured to another version and asked twice; in
between, a late failure turns up by itself. -/
theorem datagrams_well_formed_asked :
    let w : World := ⟨0, fun _ => [.v4 #v[192, 0, 2, 1]], .unlimited,
      fun _ => true⟩
    let c : Config := {}
    let late : Traced (Exchange Script) → Traced (Exchange Script) :=
      fun t => { t with inner := { t.inner with queue := [.failure .timedOut] } }
    let steps : List (Step (Traced (Exchange Script))) :=
      [.call w (.create 64), .call w (.configure { version := 4 }),
        .call w (.execute ["ntpversion", "3"] []),
        .call w (.execute ["readvar", "9", "leap"] []), .incident late,
        .call w (.execute ["readlist"] [])]
    let s := new c.client ⟨⟨⟨[]⟩, []⟩, []⟩ Standard.tables
    c.validate = .ok () ∧ (∀ step ∈ steps, step.Proper)
      ∧ (s.performAll steps).client.transport.sent
        = (inquiriesAll steps s).flatMap Inquiry.sendings
      ∧ ∀ q ∈ inquiriesAll steps s, ∀ x ∈ q.sendings, q.Sends x.1 x.2 := by
  intro w c late steps s
  have hvalid : c.validate = .ok () := rfl
  have hsteps : ∀ step ∈ steps, step.Proper := by
    simp only [steps, List.forall_mem_cons]
    refine ⟨trivial, ?_, trivial, trivial, fun _ => rfl, trivial,
      fun _ h => absurd h List.not_mem_nil⟩
    show oldestVersion ≤ 4 ∧ 4 ≤ newestVersion
    decide
  obtain ⟨hsent, hqueries, -⟩ := datagrams_well_formed
    (Config.versionExists_of_validate hvalid) ⟨⟨⟨[]⟩, []⟩, []⟩ hsteps
  exact ⟨hvalid, hsteps, hsent, fun q hq => (hqueries q hq).1⟩

end Session

end NtpQuery
