import NtpQuery.Proofs.Client.Host

/-!
# The course of a client

Whatever is done with a client, it changes in a few ways: it makes a
query, it takes over the list of associations that a query has brought,
it starts again from defaults, it turns to a server, or some settings
change and its `Bearings` stay. A `Client.Course` is a finite run of such
changes, together with the queries made on the way.

A course is one thing that can be said of a client and the queries that
have been made. Whatever else is said of them, `Client.Upheld` asks for
what commands can do to keep it true; they cannot make a client start
again.
-/

namespace NtpQuery

/-- **A setting that a command can make.** -/
inductive Setting where
  /-- The wait for the first fragment of a response, in milliseconds. -/
  | timeout (ms : UInt64)
  /-- The authentication delay, in milliseconds. -/
  | delay (ms : Int64)
  /-- Whether tables show host names or addresses. -/
  | showHostnames (on : Bool)
  /-- Whether variables are shown as they came. -/
  | raw (on : Bool)
  /-- Whether requests should be authenticated. -/
  | authenticate (on : Bool)
  /-- The version that requests claim. -/
  | version (version : UInt8)
  /-- The key to authenticate with. -/
  | key (key : Option UInt32)

/-- **A version that exists.** -/
def VersionExists (version : UInt8) : Prop :=
  oldestVersion ≤ version.toNat ∧ version.toNat ≤ newestVersion

namespace Setting

/-- What a client remembers when the setting has been made. -/
def apply : Setting → Client.State → Client.State
  | timeout ms, s => { s with timeout := ms }
  | delay ms, s => { s with delay := ms }
  | showHostnames on, s => { s with showHostnames := on }
  | raw on, s => { s with raw := on }
  | authenticate on, s => { s with authenticate := on }
  | version n, s => { s with version := n }
  | key k, s => { s with key := k }

/-- **An admissible setting**: a version that is set exists. -/
def Admissible : Setting → Prop
  | version n => VersionExists n
  | _ => True

/-- An admissible setting leaves a version that exists. -/
theorem Admissible.version_apply {x : Setting} (hx : x.Admissible)
    {s : Client.State} (hs : VersionExists s.version) :
    VersionExists (x.apply s).version := by
  cases x with
  | version n => exact hx
  | _ => exact hs

end Setting

variable {τ : Type} [Transport τ]

/-- **A query that is made**: of which client, for what, and received
into which buffer. -/
structure Inquiry (τ : Type) where
  /-- The world around the client. -/
  world : World
  /-- The client before the query. -/
  client : Client τ
  /-- The operation. -/
  opcode : Opcode
  /-- The association that it is about. -/
  assid : UInt16
  /-- The data of the request. -/
  data : Bytes
  /-- The receive buffer. -/
  scratch : Bytes

namespace Inquiry

/-- What the query leaves behind. -/
def outcome (q : Inquiry τ) : Client.Outcome τ Response :=
  q.client.query q.world q.opcode q.assid q.data q.scratch

/-- The client once the host has been found, and the host's address. -/
def addressed (q : Inquiry τ) : Except ClientError SocketAddr × Client τ :=
  q.client.serverAddress q.world

/-- Whether the query draws a sequence number, which it does once the
host has been found. -/
def draws (q : Inquiry τ) : Bool :=
  q.addressed.1.isOk

theorem draws_iff {q : Inquiry τ} :
    q.draws = true ↔ ∃ peer, q.addressed.1 = .ok peer := by
  unfold draws
  cases q.addressed.1 with
  | ok peer => simp [Except.isOk, Except.toBool]
  | error e => simp [Except.isOk, Except.toBool]

/-- A query whose host cannot be found leaves the client as it was. -/
theorem outcome_of_not_draws {q : Inquiry τ} (hdraws : q.draws = false) :
    q.outcome.client = q.client := by
  cases hpeer : q.addressed.1 with
  | ok peer => exact absurd (draws_iff.mpr ⟨peer, hpeer⟩) (by simp [hdraws])
  | error e =>
    unfold outcome
    rw [Client.query_of_no_address hpeer]

/-- **What a query remembers**, once its host has been found: the host, and
one more sequence number drawn. -/
theorem remembered_of_draws {q : Inquiry τ} (hdraws : q.draws = true) :
    q.outcome.client.state = q.addressed.2.state.drawSequence
      ∧ q.outcome.client.defaults = q.addressed.2.defaults := by
  obtain ⟨peer, hpeer⟩ := draws_iff.mp hdraws
  unfold outcome
  cases hrequest : q.client.nextRequest? q.opcode q.assid q.data with
  | none =>
    obtain ⟨e, he⟩ := Client.query_of_too_long hpeer hrequest
    rw [he]
    exact ⟨rfl, rfl⟩
  | some request =>
    rw [Client.query_eq_attempt hpeer hrequest]
    exact ⟨rfl, rfl⟩

/-- **The three ways of a query** for what the client remembers: its host
cannot be found and nothing changes, one more sequence number is drawn, or
the default host is chosen as well. -/
theorem remembered_cases (q : Inquiry τ) :
    q.outcome.client = q.client
      ∨ (q.outcome.client.state = q.client.state.drawSequence
        ∧ q.outcome.client.defaults = q.client.defaults)
      ∨ (q.client.state.host = none ∧ ∃ addr,
        q.outcome.client.state
            = (q.client.withDefaultHost addr).state.drawSequence
          ∧ q.outcome.client.defaults = q.client.defaults) := by
  cases hdraws : q.draws with
  | false => exact Or.inl (outcome_of_not_draws hdraws)
  | true =>
    refine Or.inr ?_
    obtain ⟨hstate, hdefaults⟩ := remembered_of_draws hdraws
    unfold addressed at hstate hdefaults
    rw [hstate, hdefaults]
    rcases Client.serverAddress_cases q.world q.client with
      ⟨host, -, heq⟩ | ⟨hnone, addr, heq⟩ | ⟨-, e, heq⟩
    · rw [heq]
      exact Or.inl ⟨rfl, rfl⟩
    · rw [heq]
      exact Or.inr ⟨hnone, addr, rfl, rfl⟩
    · rw [heq]
      exact Or.inl ⟨rfl, rfl⟩

/-- A query changes neither the version nor the defaults. -/
theorem outcome_version (q : Inquiry τ) :
    q.outcome.client.state.version = q.client.state.version
      ∧ q.outcome.client.defaults = q.client.defaults := by
  obtain ⟨-, hversion, -, -, hdefaults⟩ :=
    Client.serverAddress_frame q.world q.client
  cases hdraws : q.draws with
  | false =>
    rw [outcome_of_not_draws hdraws]
    exact ⟨rfl, rfl⟩
  | true =>
    obtain ⟨hstate, hsame⟩ := remembered_of_draws hdraws
    rw [hstate, hsame]
    exact ⟨hversion, hdefaults⟩

/-- The query by which the list of associations is read. -/
def listInquiry (w : World) (c : Client τ) (scratch : Bytes) : Inquiry τ :=
  ⟨w, c, .readStatus, 0, [], scratch⟩

omit [Transport τ] in
/-- Whether a query asks for the list of associations. -/
def AsksForList (q : Inquiry τ) : Prop :=
  q.opcode = .readStatus ∧ q.assid = 0

end Inquiry

namespace Client

/-- **The bearings of a client**: the part of its state that belongs to
the conversation with its server. -/
structure Bearings where
  /-- The sequence number of the last request. -/
  sequence : UInt16
  /-- The current server. -/
  host : Option Host
  /-- The address family that it was chosen with. -/
  family : AddressFamily
  /-- The last list of associations. -/
  associations : List Association

/-- The bearings in what a client remembers. -/
def State.bearings (s : State) : Bearings :=
  ⟨s.sequence, s.host, s.family, s.associations⟩

/-- No setting changes the bearings. -/
theorem bearings_apply (x : Setting) (s : State) :
    (x.apply s).bearings = s.bearings := by
  cases x <;> rfl

/-- **What commands uphold**: whatever `I` says of the queries that have
been made and of the client, it says again when the client makes a query,
takes over the list of associations that the query has brought, turns to a
server, or makes an admissible setting. -/
structure Upheld (I : List (Inquiry τ) → Client τ → Prop) : Prop where
  /-- A query is made. -/
  query : ∀ {made} (q : Inquiry τ), I made q.client →
    I (made ++ [q]) q.outcome.client
  /-- The list of associations that a query has brought is taken over. -/
  list : ∀ {made} {q : Inquiry τ} {response list},
    I (made ++ [q]) q.outcome.client → q.AsksForList →
    q.outcome.result = .ok response →
    readAssociations response.data = some list →
    I (made ++ [q])
      (q.outcome.client.modify fun s => { s with associations := list })
  /-- The client turns to a server. -/
  turn : ∀ {made b} (host : Host) (family : AddressFamily), I made b →
    I made (b.turnTo host family)
  /-- A setting is made. -/
  settle : ∀ {made b} {x : Setting}, x.Admissible → I made b →
    I made (b.modify x.apply)

section

variable {I : List (Inquiry τ) → Client τ → Prop}
variable {made : List (Inquiry τ)} {b : Client τ}

omit [Transport τ] in
/-- What makes no query adds none. -/
theorem none_made (h : I made b) : I (made ++ []) b := by
  rwa [List.append_nil]

namespace Upheld

/-- **Choosing the server** makes no query. -/
theorem selectHost (hI : Upheld I) (h : I made b) (w : World)
    (name : String) (family : AddressFamily) :
    I made (b.selectHost w name family).2 := by
  unfold Client.selectHost
  cases b.locate w name family with
  | error e => exact h
  | ok addr => exact hI.turn ⟨name, addr⟩ family h

/-- **Reading the list of associations anew** makes one query. -/
theorem refresh (hI : Upheld I) (h : I made b) (w : World)
    (scratch : Bytes) :
    I (made ++ [.listInquiry w b scratch]) (b.refresh w scratch).client := by
  have hquery := hI.query (.listInquiry w b scratch) h
  unfold Client.refresh
  dsimp only
  split
  · exact hquery
  next response hresponse =>
    split
    · exact hquery
    next list hlist => exact hI.list hquery ⟨rfl, rfl⟩ hresponse hlist

end Upheld

end

/-- **A run of a client** from one state to another, with the queries
that are made on the way, oldest first. -/
inductive Course (c : Client τ) : List (Inquiry τ) → Client τ → Prop where
  /-- Nothing has happened yet. -/
  | start : Course c [] c
  /-- A query is made. -/
  | query {made : List (Inquiry τ)} (q : Inquiry τ) :
    Course c made q.client → Course c (made ++ [q]) q.outcome.client
  /-- The list of associations that a query has brought is taken over. -/
  | list {made : List (Inquiry τ)} {q : Inquiry τ} {response : Response}
    {list : List Association} :
    Course c (made ++ [q]) q.outcome.client → q.AsksForList →
    q.outcome.result = .ok response →
    readAssociations response.data = some list →
    Course c (made ++ [q])
      (q.outcome.client.modify fun s => { s with associations := list })
  /-- The client takes on defaults and starts again from them. -/
  | adopt {made : List (Inquiry τ)} {b : Client τ} (d : Defaults) :
    Course c made b → Course c made (b.adopt d)
  /-- The client turns to a server. -/
  | turn {made : List (Inquiry τ)} {b : Client τ} (host : Host)
    (family : AddressFamily) :
    Course c made b → Course c made (b.turnTo host family)
  /-- Settings change, and the bearings stay. -/
  | settle {made : List (Inquiry τ)} {b : Client τ} {s : State} :
    Course c made b → s.bearings = b.state.bearings →
    Course c made { b with state := s }

namespace Course

variable {c b : Client τ} {made : List (Inquiry τ)}

/-- **A course is upheld.** -/
theorem upheld (c : Client τ) : Upheld (Course c) where
  query q h := h.query q
  list h hasks hresponse hlist := h.list hasks hresponse hlist
  turn host family h := h.turn host family
  settle {_ b x} _ h := h.settle (bearings_apply x b.state)

/-- **Before each query** of a course there was a course that led to
it. -/
theorem before {earlier later : List (Inquiry τ)} {q : Inquiry τ}
    (h : Course c made b) (hmade : made = earlier ++ q :: later) :
    Course c earlier q.client := by
  induction h generalizing later with
  | start => exact absurd hmade.symm (by simp)
  | query p hbefore ih =>
    rcases List.eq_nil_or_concat later with rfl | ⟨front, last, rfl⟩
    · obtain ⟨rfl, hlast⟩ := List.append_inj' hmade rfl
      obtain rfl := List.singleton_inj.mp hlast
      exact hbefore
    · rw [List.concat_eq_append, ← List.cons_append,
        ← List.append_assoc] at hmade
      exact ih (List.append_inj' hmade rfl).1
  | list _ _ _ _ ih => exact ih hmade
  | adopt _ _ ih => exact ih hmade
  | turn _ _ _ ih => exact ih hmade
  | settle _ _ ih => exact ih hmade

end Course

end Client

end NtpQuery
