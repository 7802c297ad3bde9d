import NtpQuery.Proofs.Assembly.Offers
import NtpQuery.Proofs.Client.Course
import NtpQuery.Proofs.Client.Keep

/-!
# How long a list of associations can be

A fragment starts at one of 65536 offsets and carries a bounded payload, so
a response is bounded as well, and so is the list of associations that is
read from it. Every index into such a list can be typed as a word.
-/

namespace NtpQuery

/-- **The greatest length of a response**: the last offset and a payload. -/
def maxResponse : Nat := 65535 + maxPayload

namespace Fragment

/-- The payload of a fragment that is read from a datagram is bounded. -/
theorem length_of_decode {d : Bytes} {f : Fragment}
    (h : decode d = .ok f) : f.data.length ≤ maxPayload := by
  unfold decode at h
  split at h
  · exact nomatch h
  next header _ =>
    dsimp only at h
    split at h
    next hcount =>
      rw [← Except.ok.inj h]
      exact Nat.le_trans (List.length_take_le _ _) hcount.2
    next => exact nomatch h

end Fragment

namespace Assembly

/-- **An assembly that the protocol can lead to**: its pieces are in order
and end in time. -/
structure Bounded (a : Assembly) : Prop where
  /-- The pieces are in order. -/
  ordered : a.Ordered
  /-- No piece ends behind the greatest length of a response. -/
  stop_le : ∀ p ∈ a.pieces, p.stop ≤ maxResponse

theorem bounded_empty : empty.Bounded :=
  ⟨List.Pairwise.nil, fun _ hp => absurd hp List.not_mem_nil⟩

namespace Bounded

variable {a b : Assembly} {f : Fragment}

/-- **A fragment that is accepted** keeps it so. -/
theorem insert (h : a.Bounded) (hf : f.data.length ≤ maxPayload)
    (hi : a.insert f = .ok b) : b.Bounded := by
  rcases h.ordered.insert_ok hi with ⟨-, rfl⟩ | ⟨hadmits, -, rfl⟩
  · exact h
  · refine ⟨h.ordered.put hadmits, fun p hp => ?_⟩
    rcases List.mem_cons.mp ((pieces_put_perm a f).mem_iff.mp hp) with
      rfl | hp
    · have hoffset := f.header.offset.toNat_lt
      show f.header.offset.toNat + f.data.length ≤ maxResponse
      unfold maxResponse
      omega
    · exact h.stop_le p hp

/-- Its response is bounded. -/
theorem length_response (h : a.Bounded) :
    a.response.data.length ≤ maxResponse :=
  length_flatMap_le_of_before (s := 0) h.ordered
    fun p hp => ⟨Nat.zero_le _, h.stop_le p hp⟩

end Bounded

end Assembly

variable {τ : Type} [Transport τ]

namespace Client

/-- A fragment of a response is one that a datagram carries. -/
theorem decode_of_verdict {opcode : Opcode} {sequence : UInt16} {d : Bytes}
    {f : Fragment} (h : verdict opcode sequence d = .fragment f) :
    Fragment.decode d = .ok f := by
  unfold verdict at h
  split at h
  · exact nomatch h
  next g hg =>
    dsimp only at h
    split at h
    · exact nomatch h
    · split at h
      · exact nomatch h
      · rw [hg, Verdict.fragment.inj h]

/-- **A response that has been received** is bounded. -/
theorem length_of_collect {opcode : Opcode} {sequence : UInt16}
    {first further : UInt64} {a : Assembly} {scratch : Bytes} {t : τ}
    {r : Response} (ha : a.Bounded)
    (h : (collect opcode sequence first further a scratch t).1 = .ok r) :
    r.data.length ≤ maxResponse := by
  fun_induction collect opcode sequence first further a scratch t
  case case1 => cases h
  case case2 ih => exact ih ha h
  case case3 => cases h
  case case4 => cases h
  case case5 hverdict b hinsert _ =>
    rw [← Except.ok.inj h]
    exact (ha.insert (Fragment.length_of_decode
      (decode_of_verdict hverdict)) hinsert).length_response
  case case6 hverdict b hinsert _ ih =>
    exact ih (ha.insert (Fragment.length_of_decode
      (decode_of_verdict hverdict)) hinsert) h

/-- So is that of a request, however often it is sent. -/
theorem length_of_attempt {opcode : Opcode} {sequence : UInt16}
    {first further : UInt64} {peer : SocketAddr} {request scratch : Bytes}
    {retries : Nat} {t : τ} {r : Response}
    (h : (attempt opcode sequence first further peer request retries scratch
      t).1 = .ok r) : r.data.length ≤ maxResponse := by
  fun_induction attempt opcode sequence first further peer request retries
    scratch t
  case case1 => cases h
  case case2 => cases h
  case case3 ih => exact ih h
  case case4 => exact length_of_collect Assembly.bounded_empty h

/-- A list of associations takes four bytes for each entry. -/
theorem length_of_readAssociations {d : Bytes} {list : List Association}
    (h : readAssociations d = some list) : 4 * list.length = d.length := by
  fun_induction readAssociations d generalizing list
  case case1 =>
    rw [← Option.some.inj h]
    rfl
  case case2 ih =>
    obtain ⟨rest, hrest, rfl⟩ := Option.map_eq_some_iff.mp h
    have hlength := ih hrest
    simp only [List.length_cons]
    omega
  case case3 => exact nomatch h

end Client

/-- **The response to a query** is bounded. -/
theorem Inquiry.length_response {q : Inquiry τ} {r : Response}
    (h : q.outcome.result = .ok r) : r.data.length ≤ maxResponse := by
  unfold outcome at h
  cases hpeer : (q.client.serverAddress q.world).1 with
  | error e =>
    rw [Client.query_of_no_address hpeer] at h
    exact nomatch h
  | ok peer =>
    cases hrequest : q.client.nextRequest? q.opcode q.assid q.data with
    | none =>
      obtain ⟨e, he⟩ := Client.query_of_too_long hpeer hrequest
      rw [he] at h
      exact nomatch h
    | some request =>
      rw [Client.query_eq_attempt hpeer hrequest] at h
      exact Client.length_of_attempt h

namespace Client

/-- **A client whose list of associations is bounded.** -/
def Bounded (c : Client τ) : Prop :=
  4 * c.state.associations.length ≤ maxResponse

omit [Transport τ] in
/-- A client with a bounded list has fewer entries than an index can
name. -/
theorem Bounded.length_lt {c : Client τ} (h : c.Bounded) :
    c.state.associations.length < UInt64.size := by
  have hmax : maxResponse < UInt64.size := by decide
  unfold Bounded at h
  omega

/-- **Commands keep the list bounded**: it is read from a response, or
dropped. -/
theorem Bounded.upheld :
    Upheld fun (_ : List (Inquiry τ)) c => c.Bounded where
  query q h := by
    unfold Bounded
    rcases q.remembered_cases with heq | ⟨hstate, -⟩ | ⟨-, addr, hstate, -⟩
    · rwa [heq]
    · rw [hstate]
      exact h
    · rw [hstate]
      exact Nat.zero_le _
  list _ _ hresponse hlist := by
    unfold Bounded
    rw [show 4 * (_ : Client τ).state.associations.length = _ from
      length_of_readAssociations hlist]
    exact Inquiry.length_response hresponse
  turn {_ b} host family h := by
    rcases b.turnTo_cases host family with ⟨-, heq⟩ | ⟨-, heq⟩
    · rw [heq]
      exact h
    · rw [heq]
      exact Nat.zero_le _
  settle {_ b x} _ h := by
    have hsame := congrArg Bearings.associations
      (bearings_apply x b.state)
    unfold Bounded
    rw [show (b.modify x.apply).state.associations = b.state.associations
      from hsame]
    exact h

end Client

end NtpQuery
