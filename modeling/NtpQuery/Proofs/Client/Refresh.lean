import NtpQuery.Proofs.Client.ListLength
import NtpQuery.Proofs.Client.Reassembly
import NtpQuery.Proofs.Session.Inquiries
import NtpQuery.Proofs.Wire.RoundTrip

/-!
# The list of associations is read as a whole

A list of associations travels as four bytes for each entry. Reading is
the inverse of writing these bytes (`readAssociations_eq_some_iff`), so it
does not matter where the fragments of a response have cut them.

A list that cannot be read leaves the old one. The only way to lose it is
the choice of a server: a query by a client without one turns to the
default host, and every turn to another address drops the list. Whatever
operations lead to, a client without a server has no list to lose
(`Client.Anchored`).
-/

namespace NtpQuery

/-- **The bytes of an entry**: the ID before the status word, each high
byte first. -/
def Association.encode (a : Association) : Bytes :=
  Bytes.ofWord a.assid ++ Bytes.ofWord a.status

namespace Client

/-- A list that was written is read back. -/
theorem readAssociations_encode (list : List Association) :
    readAssociations (list.flatMap Association.encode) = some list := by
  induction list with
  | nil => rfl
  | cons a list ih =>
    rw [List.flatMap_cons, Association.encode]
    unfold Bytes.ofWord
    simp only [List.cons_append, List.nil_append, readAssociations]
    rw [ih, Bytes.word_ofWord, Bytes.word_ofWord]
    rfl

/-- What was read is what was written. -/
theorem eq_encode_of_readAssociations {d : Bytes} {list : List Association}
    (h : readAssociations d = some list) :
    d = list.flatMap Association.encode := by
  fun_induction readAssociations d generalizing list with
  | case1 =>
    obtain rfl := Option.some.inj h
    rfl
  | case2 a₁ a₂ s₁ s₂ rest ih =>
    obtain ⟨tail, htail, rfl⟩ := Option.map_eq_some_iff.mp h
    rw [List.flatMap_cons, ← ih htail, Association.encode,
      Header.ofWord_word, Header.ofWord_word]
    rfl
  | case3 => exact absurd h (by simp)

/-- **Reading a list of associations** is the inverse of writing it. -/
theorem readAssociations_eq_some_iff {d : Bytes} {list : List Association} :
    readAssociations d = some list
      ↔ d = list.flatMap Association.encode :=
  ⟨eq_encode_of_readAssociations, fun h => h ▸ readAssociations_encode list⟩

/-- What cannot be read is not made of whole entries. -/
theorem readAssociations_eq_none_iff {d : Bytes} :
    readAssociations d = none ↔ d.length % 4 ≠ 0 := by
  fun_induction readAssociations d with
  | case1 => simp
  | case2 a₁ a₂ s₁ s₂ rest ih =>
    rw [Option.map_eq_none_iff, ih]
    simp only [List.length_cons]
    omega
  | case3 d hnil hfour =>
    refine iff_of_true rfl fun hmod => ?_
    rcases d with _ | ⟨a₁, _ | ⟨a₂, _ | ⟨s₁, _ | ⟨s₂, rest⟩⟩⟩⟩
    · exact hnil rfl
    · simp at hmod
    · simp at hmod
    · simp at hmod
    · exact hfour a₁ a₂ s₁ s₂ rest rfl

end Client

variable {τ : Type} [Transport τ] {w : World} {c : Client τ}

/-- A query that is answered has found an address. -/
theorem Inquiry.addressed_of_outcome {q : Inquiry τ} {response : Response}
    (h : q.outcome.result = .ok response) :
    ∃ peer, q.addressed.1 = .ok peer := by
  cases hpeer : q.addressed.1 with
  | ok peer => exact ⟨peer, rfl⟩
  | error e =>
    unfold outcome at h
    rw [Client.query_of_no_address hpeer] at h
    exact nomatch h

namespace Client

/-- **What a query does to the server and the list**: nothing, unless the
default host had to be chosen. -/
theorem associations_query (w : World) (opcode : Opcode) (assid : UInt16)
    (data scratch : Bytes) (c : Client τ) :
    let b := (c.query w opcode assid data scratch).client
    (b.state.host = c.state.host
        ∧ b.state.associations = c.state.associations)
      ∨ (c.state.host = none ∧ b.state.host ≠ none
        ∧ b.state.associations = []) := by
  intro b
  let q : Inquiry τ := ⟨w, c, opcode, assid, data, scratch⟩
  rcases q.remembered_cases with heq | ⟨hstate, -⟩ | ⟨hnone, addr, hstate, -⟩
  · exact Or.inl ⟨congrArg (·.state.host) heq,
      congrArg (·.state.associations) heq⟩
  · exact Or.inl ⟨(congrArg State.host hstate :),
      (congrArg State.associations hstate :)⟩
  · refine Or.inr ⟨hnone, fun hno => ?_, congrArg State.associations hstate⟩
    exact nomatch (congrArg State.host hstate).symm.trans hno

omit [Transport τ] in
/-- **A client whose list is anchored in a server**: without a server there
is no list. -/
def Anchored (c : Client τ) : Prop :=
  c.state.host = none → c.state.associations = []

/-- **The list stays anchored** all along a course: it is dropped with its
server, and a query that brings one has found a server. -/
theorem Course.anchored {b : Client τ} {made : List (Inquiry τ)}
    (hc : c.Anchored) (h : Course c made b) : b.Anchored := by
  induction h with
  | start => exact hc
  | query q _ ih =>
    intro hnone
    rcases associations_query q.world q.opcode q.assid q.data q.scratch
      q.client with ⟨hhost, hlist⟩ | ⟨-, hsome, -⟩
    · exact hlist.trans (ih (hhost.symm.trans hnone))
    · exact absurd hnone hsome
  | list _ _ hresponse _ _ =>
    intro hnone
    obtain ⟨peer, hpeer⟩ := Inquiry.addressed_of_outcome hresponse
    obtain ⟨host, hhost, -⟩ := serverAddress_host hpeer
    have hstate := (Inquiry.remembered_of_draws
      (Inquiry.draws_iff.mpr ⟨peer, hpeer⟩)).1
    exact absurd (hhost.symm.trans
      ((congrArg State.host hstate).symm.trans hnone)) nofun
  | adopt d => exact fun _ => rfl
  | @turn made b host family _ _ =>
    intro hnone
    rcases b.turnTo_cases host family with ⟨-, heq⟩ | ⟨-, heq⟩
    all_goals
      rw [heq] at hnone
      exact nomatch hnone
  | settle _ hs ih =>
    intro hnone
    exact (congrArg Bearings.associations hs).trans
      (ih ((congrArg Bearings.host hs).symm.trans hnone))

/-- **The two ways of reading the list anew**, by the query for it. -/
theorem refresh_cases (w : World) (scratch : Bytes) (c : Client τ) :
    let q := c.query w .readStatus 0 [] scratch
    let o := c.refresh w scratch
    (∃ response list, q.result = .ok response
        ∧ readAssociations response.data = some list
        ∧ o.result = .ok ()
        ∧ o.client = q.client.modify fun s => { s with associations := list })
      ∨ (∃ e, o.result = .error e ∧ o.client = q.client
        ∧ (q.result = .error e
          ∨ ∃ response, q.result = .ok response
            ∧ readAssociations response.data = none
            ∧ e = .protocol (.raggedAssociations response.data.length))) := by
  dsimp only
  unfold refresh
  dsimp only
  split
  next e hresult => exact Or.inr ⟨e, rfl, rfl, Or.inl hresult⟩
  next response hresponse =>
    split
    next hnone =>
      exact Or.inr ⟨_, rfl, rfl, Or.inr ⟨response, hresponse, hnone, rfl⟩⟩
    next list hlist =>
      exact Or.inl ⟨response, list, hresponse, hlist, rfl, rfl⟩

/-- A client whose list is anchored keeps it if it cannot be read anew. -/
theorem Anchored.refresh_of_error {scratch : Bytes} {e : ClientError}
    (h : c.Anchored) (hfails : (c.refresh w scratch).result = .error e) :
    (c.refresh w scratch).client.state.associations
      = c.state.associations := by
  rcases refresh_cases w scratch c with
    ⟨-, -, -, -, hok, -⟩ | ⟨-, -, hclient, -⟩
  · exact nomatch hfails.symm.trans hok
  · rw [hclient]
    rcases associations_query w .readStatus 0 [] scratch c with
      ⟨-, hlist⟩ | ⟨hnone, -, hlist⟩
    · exact hlist
    · exact hlist.trans (h hnone).symm

/-- **A list that the server sends** when it is asked for next: the
fragments that a response is cut into, and what arrives of them. -/
structure ListArrives {σ : Type} [Responder σ] (w : World)
    (c : Client (Traced (Exchange σ))) (h : Header) (chunk : Nat)
    (list : List Association) (arrivals : List Fragment) : Prop where
  /-- The fragments are those of a response, -/
  response : h.response = true
  /-- which reports no error, -/
  error : h.error = false
  /-- is about the list -/
  opcode : h.opcode = Opcode.readStatus.code
  /-- and belongs to the next request. -/
  sequence : h.sequence = c.state.sequence + 1
  /-- Each of them carries at least one byte, -/
  chunk_pos : 0 < chunk
  /-- and not more than a message does. -/
  chunk_le : chunk ≤ maxPayload
  /-- Nothing else arrives, -/
  only : arrivals
    ⊆ Fragment.split h chunk 0 (list.flatMap Association.encode)
  /-- each of them does, in whatever order and however often, -/
  all : Fragment.split h chunk 0 (list.flatMap Association.encode)
    ⊆ arrivals
  /-- and nothing has been waiting. -/
  idle : c.transport.inner.queue = []
  /-- The request finds the server, and they arrive in return. -/
  answered : ∃ peer, (c.serverAddress w).1 = .ok peer
    ∧ ∀ request, c.nextRequest? .readStatus 0 [] = some request →
      (Responder.react c.transport.inner.responder peer request).1
        = ⟨arrivalsOf arrivals, none⟩

/-- The query for the list brings its bytes, wherever the fragments cut
them. -/
theorem ListArrives.query {σ : Type} [Responder σ]
    {c : Client (Traced (Exchange σ))} {h : Header} {chunk : Nat}
    {list : List Association} {arrivals : List Fragment}
    (ha : ListArrives w c h chunk list arrivals)
    (hlength : list.length ≤ 16384) {scratch : Bytes}
    (hscratch : headerLength + maxPayload ≤ scratch.length) :
    (c.query w .readStatus 0 [] scratch).result
      = .ok ⟨h.status, h.assid, list.flatMap Association.encode⟩ := by
  obtain ⟨peer, hpeer, hreact⟩ := ha.answered
  obtain ⟨request, hrequest⟩ :=
    c.exists_nextRequest .readStatus 0 (List.length_nil.trans_le
      (Nat.zero_le maxPayload))
  -- the last offset fits a header, even if the list is longest
  have hbytes := length_of_readAssociations (readAssociations_encode list)
  have hfs : Fragment.Carries h 0 (list.flatMap Association.encode)
      (Fragment.split h chunk 0 (list.flatMap Association.encode)) :=
    Fragment.carries_split ha.chunk_pos ha.chunk_le (by decide)
      fun i hi => by omega
  obtain ⟨last, hlast, -⟩ := hfs.final
  obtain ⟨hinner, -⟩ := serverAddress_quiet (w := w) ha.idle
  obtain ⟨hsend, hwaits⟩ := Traced.send_of_react
    (t := (c.serverAddress w).2.transport)
    (by rw [hinner, ha.idle]) (by rw [hinner]; exact hreact request hrequest)
  obtain ⟨-, _, _, hcollect, -⟩ :=
    collect_gathered c.state.timeout c.state.secondaryTimeout hfs
      (fun f hf => verdict_encode hfs ha.response ha.error ha.opcode
        ha.sequence hf)
      hscratch hwaits Assembly.gathered_empty ha.only ha.all
      fun hnil => absurd (hnil hlast) List.not_mem_nil
  rw [query_eq_attempt hpeer hrequest]
  dsimp only
  rw [attempt_of_collect hsend hcollect]

/-- **A list comes back whole.** -/
theorem ListArrives.refresh {σ : Type} [Responder σ]
    {c : Client (Traced (Exchange σ))} {h : Header} {chunk : Nat}
    {list : List Association} {arrivals : List Fragment}
    (ha : ListArrives w c h chunk list arrivals)
    (hlength : list.length ≤ 16384) {scratch : Bytes}
    (hscratch : headerLength + maxPayload ≤ scratch.length) :
    (c.refresh w scratch).result = .ok ()
      ∧ (c.refresh w scratch).client.state.associations = list := by
  have hquery := ha.query hlength hscratch
  have hlist := readAssociations_encode list
  rcases refresh_cases w scratch c with
    ⟨response, other, hanswer, hread, hok, hclient⟩
      | ⟨e, -, -, herr | ⟨response, hanswer, hnone, -⟩⟩
  · obtain rfl := Except.ok.inj (hquery.symm.trans hanswer)
    obtain rfl := Option.some.inj (hlist.symm.trans hread)
    exact ⟨hok, by rw [hclient]; rfl⟩
  · exact nomatch hquery.symm.trans herr
  · obtain rfl := Except.ok.inj (hquery.symm.trans hanswer)
    exact nomatch hlist.symm.trans hnone

/-- **Reading the list anew is all or nothing, and loses nothing.** Either
the query for it succeeds, its payload is the bytes of one list and of no
other, and that list takes the place of the old one. Or it fails, for the
reason that the query has or because the payload is not made of whole
entries, and the server and the list stay as they were, unless the query
had to choose the default host, which drops the list.

After any operations of a new client, a failure leaves the list as it was
in either case. And a list of up to 16384 entries comes back as it was
sent, however it is cut into fragments. -/
theorem refresh_all_or_nothing :
    (∀ (τ : Type) [Transport τ] (w : World) (c : Client τ)
      (scratch : Bytes),
      let q := c.query w .readStatus 0 [] scratch
      let o := c.refresh w scratch
      (∃ response list, q.result = .ok response
          ∧ (∀ other : List Association,
            response.data = other.flatMap Association.encode
              ↔ other = list)
          ∧ o.result = .ok ()
          ∧ o.client
            = q.client.modify fun s => { s with associations := list })
        ∨ ∃ e, o.result = .error e
          ∧ (q.result = .error e
            ∨ ∃ response, q.result = .ok response
              ∧ response.data.length % 4 ≠ 0
              ∧ e = .protocol (.raggedAssociations response.data.length))
          ∧ o.client = q.client
          ∧ ((o.client.state.host = c.state.host
              ∧ o.client.state.associations = c.state.associations)
            ∨ (c.state.host = none ∧ o.client.state.host ≠ none
              ∧ o.client.state.associations = [])))
      ∧ (∀ (τ : Type) [Transport τ] (ω : Type) [Workspace ω] (d : Defaults)
        (t : τ) (ops : List (Operation ω)) (w : World) (scratch : Bytes)
        (e : ClientError),
        let c := Operation.performAll ops (.new d t)
        let o := c.refresh w scratch
        o.result = .error e →
          o.client.state.associations = c.state.associations)
      ∧ ∀ (σ : Type) [Responder σ] (w : World)
        (c : Client (Traced (Exchange σ))) (h : Header) (chunk : Nat)
        (list : List Association) (arrivals : List Fragment)
        (scratch : Bytes), list.length ≤ 16384 →
        headerLength + maxPayload ≤ scratch.length →
        ListArrives w c h chunk list arrivals →
        let o := c.refresh w scratch
        o.result = .ok () ∧ o.client.state.associations = list := by
  refine ⟨fun τ _ w c scratch => ?_,
    fun τ _ ω _ d t ops w scratch e hfails =>
      Anchored.refresh_of_error (Course.anchored (fun _ => rfl)
        (Operation.course_performAll .start ops)) hfails,
    fun σ _ w c h chunk list arrivals scratch hlength hscratch ha =>
      ha.refresh hlength hscratch⟩
  rcases refresh_cases w scratch c with
    ⟨response, list, hanswer, hread, hok, hclient⟩
      | ⟨e, hfails, hclient, hwhy⟩
  · refine Or.inl ⟨response, list, hanswer, fun other => ?_, hok, hclient⟩
    rw [← readAssociations_eq_some_iff, hread, Option.some.injEq]
    exact eq_comm
  · refine Or.inr ⟨e, hfails, hwhy.imp_right ?_, hclient, ?_⟩
    · rintro ⟨response, hanswer, hnone, rfl⟩
      exact ⟨response, hanswer, readAssociations_eq_none_iff.mp hnone, rfl⟩
    · rw [hclient]
      exact associations_query w .readStatus 0 [] scratch c

/-- Three entries in fragments of three bytes, the first two entries alike:
every fragment but the first and the last holds bytes of two entries. They
arrive last to first, and one of them twice. -/
theorem refresh_all_or_nothing_straddling :
    let h := { Header.request 2 .readStatus 1 0 0 with response := true }
    let a := Fragment.place h 0 true [0, 7, 96]
    let b := Fragment.place h 3 true [20, 0, 7]
    let d := Fragment.place h 6 true [96, 20, 0]
    let e := Fragment.place h 9 false [9, 129, 2]
    let replies := [e, d, e, b, a].map fun f => Script.Event.raw f.encode
    let w : World := ⟨0, fun _ => [.v4 #v[192, 0, 2, 1]], .unlimited,
      fun _ => true⟩
    let c : Client (Traced (Exchange Script)) :=
      .new {} ⟨⟨⟨[⟨none, none, none, replies, 0⟩]⟩, []⟩, []⟩
    let o := c.refresh w (Bytes.zeros 480)
    o.result = .ok ()
      ∧ o.client.state.associations
        = [⟨7, 24596⟩, ⟨7, 24596⟩, ⟨9, 33026⟩] := by
  intro h a b d e replies w c o
  have hpeer : (c.serverAddress w).1
      = .ok ⟨.v4 #v[192, 0, 2, 1], 123⟩ := by decide
  have hbytes : [⟨7, 24596⟩, ⟨7, 24596⟩, ⟨9, 33026⟩].flatMap
      Association.encode = [0, 7, 96, 20, 0, 7, 96, 20, 0, 9, 129, 2] := by
    decide
  have hsplit : Fragment.split h 3 0
      ([⟨7, 24596⟩, ⟨7, 24596⟩, ⟨9, 33026⟩].flatMap Association.encode)
        = [a, b, d, e] := by
    rw [hbytes]
    simp [Fragment.split, a, b, d, e]
  refine refresh_all_or_nothing.2.2 Script w c h 3 _ [e, d, e, b, a] _
    (by decide) (Bytes.length_zeros 480).ge ?_
  refine ⟨rfl, rfl, rfl, rfl, by decide, by decide, by rw [hsplit]; decide,
    by rw [hsplit]; decide, rfl, ⟨_, hpeer, fun request hrequest => ?_⟩⟩
  obtain rfl := Option.some.inj hrequest
  clear hpeer hbytes hsplit hrequest o
  subst c replies a b d e h
  rfl

/-- A list without a server that it could have come from is lost, though
it could not be read anew: the default host was chosen, and nobody
answered. -/
theorem refresh_forgets_list :
    let w : World := ⟨0, fun _ => [.v4 #v[127, 0, 0, 1]], .unlimited,
      fun _ => true⟩
    let idle : Client (Exchange Script) :=
      .new { host := "127.0.0.1" } ⟨⟨[]⟩, []⟩
    let c := idle.modify fun s => { s with associations := [⟨7, 24596⟩] }
    let o := c.refresh w (Bytes.zeros 480)
    o.result = .error .timeout
      ∧ c.state.associations = [⟨7, 24596⟩]
      ∧ o.client.state.associations = [] := by
  decide +kernel

end Client

end NtpQuery
