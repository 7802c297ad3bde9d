import NtpQuery.Net.Script
import NtpQuery.Proofs.Assembly.Split
import NtpQuery.Proofs.Client.Collect
import NtpQuery.Proofs.Client.Host
import NtpQuery.Proofs.Net.Trace

/-!
# Payloads come back whole

A response that is cut into fragments reaches the client as the payload
that was cut, whatever order the fragments arrive in and however often
each of them does. The argument follows the arrivals: as long as a
fragment is missing the client receives one more datagram, and what it
has gathered is known from the set of those that have arrived
(`Assembly.Gathered`). So it stops at the first datagram after which none
is missing, and leaves the others in the queue.
-/

namespace NtpQuery

/-- A list of fragments as datagrams that wait to be received. -/
def arrivalsOf (fs : List Fragment) : List Arrival :=
  fs.map fun f => .datagram f.encode

namespace Client

variable {h : Header} {payload : Bytes} {fs : List Fragment}
variable {opcode : Opcode} {sequence : UInt16} {first further : UInt64}

/-- **A fragment of the response is read as itself** by the request whose
operation and sequence number it carries. -/
theorem verdict_encode (hfs : Fragment.Carries h 0 payload fs)
    (hresponse : h.response = true) (herror : h.error = false)
    (hopcode : h.opcode = opcode.code) (hsequence : h.sequence = sequence)
    {f : Fragment} (hf : f ∈ fs) :
    verdict opcode sequence f.encode = .fragment f.narrow := by
  have hlen := hfs.length_le f hf
  have hheader := hfs.header f hf
  have hcount : f.header.count.toNat = f.data.length := by
    rw [hheader, UInt16.toNat_ofNat']
    exact Nat.mod_eq_of_lt (hlen.trans_lt (by decide))
  have hdecode := Fragment.decode_encode f [] hcount hlen
  rw [List.append_nil] at hdecode
  have hr : f.narrow.header.response = true :=
    (congrArg Header.response hheader).trans hresponse
  have he : f.narrow.header.error = false :=
    (congrArg Header.error hheader).trans herror
  have hs : f.narrow.header.sequence = sequence :=
    (congrArg Header.sequence hheader).trans hsequence
  have ho : f.narrow.header.opcode = opcode.code := by
    show UInt8.ofNat (f.header.opcode.toNat % 32) = _
    rw [congrArg Header.opcode hheader, hopcode, Fragment.narrow_code]
  unfold verdict
  rw [hdecode]
  simp [hr, he, hs, ho]

/-- **Receiving until nothing is missing.** When the fragments that have
arrived and those that wait are together all fragments of the payload,
exactly the shortest part of the queue that completes them is
received. -/
theorem collect_gathered {σ : Type} [Responder σ]
    (first further : UInt64) (hfs : Fragment.Carries h 0 payload fs)
    (hread : ∀ f ∈ fs,
      verdict opcode sequence f.encode = .fragment f.narrow)
    {seen todo : List Fragment} {a : Assembly} {scratch : Bytes}
    {t : Traced (Exchange σ)}
    (hscratch : headerLength + maxPayload ≤ scratch.length)
    (hqueue : t.inner.queue = arrivalsOf todo)
    (hgathered : Assembly.Gathered seen a)
    (hsub : seen ++ todo ⊆ fs) (hall : fs ⊆ seen ++ todo)
    (hmissing : ¬ fs ⊆ seen) :
    ∃ k scratch' t',
      collect opcode sequence first further a scratch t
        = (.ok ⟨h.status, h.assid, payload⟩, scratch', t')
      ∧ t'.sent = t.sent
      ∧ t'.inner.queue = arrivalsOf (todo.drop k)
      ∧ fs ⊆ seen ++ todo.take k
      ∧ ∀ j < k, ¬ fs ⊆ seen ++ todo.take j := by
  induction todo generalizing seen a scratch t with
  | nil => exact absurd (by simpa using hall) hmissing
  | cons f todo ih =>
    have hf : f ∈ fs := hsub (by simp)
    have hseen : seen ⊆ fs := fun g hg => hsub (List.mem_append_left _ hg)
    have hfit : f.encode.length ≤ scratch.length := by
      rw [Fragment.length_encode]
      exact (Nat.add_le_add_left (hfs.length_le f hf) _).trans hscratch
    -- the datagram in front is received whole
    obtain ⟨b, hb, hnext⟩ := hgathered.insert hfs hseen hf
    have hrecv : (Transport.recv t scratch.length
        (patience first further a)).1 = .ok f.encode := by
      show (t.inner.recv scratch.length).1 = _
      rw [Exchange.recv_cons hqueue, List.take_of_length_le hfit]
    have hrest : (Transport.recv t scratch.length
        (patience first further a)).2.inner.queue = arrivalsOf todo := by
      show (t.inner.recv scratch.length).2.queue = _
      rw [Exchange.recv_cons hqueue]
      rfl
    have hroom : headerLength + maxPayload
        ≤ (Bytes.overlay scratch f.encode).length := by
      rwa [Bytes.length_overlay]
    have hstep : seen ++ [f] ⊆ fs := by
      intro g hg
      cases List.mem_append.mp hg with
      | inl hg => exact hseen hg
      | inr hg => exact List.mem_singleton.mp hg ▸ hf
    rw [collect_of_datagram (Prod.ext hrecv rfl), hread f hf]
    dsimp only
    rw [hb]
    dsimp only
    -- the client stops here if this was the last that was missing
    by_cases hdone : fs ⊆ seen ++ [f]
    · rw [if_pos ((hnext.isComplete_iff hfs hstep).mpr hdone),
        hnext.response_eq hfs hstep hdone]
      refine ⟨1, _, _, rfl, Traced.sent_recv _ _ _, ?_, hdone, ?_⟩
      · exact hrest
      · intro j hj
        obtain rfl := Nat.lt_one_iff.mp hj
        rwa [List.take_zero, List.append_nil]
    · rw [if_neg (mt (hnext.isComplete_iff hfs hstep).mp hdone)]
      rw [List.append_cons] at hsub hall
      obtain ⟨k, scratch', t', heq, hsent, hleft, hcov, hleast⟩ :=
        ih hroom hrest hnext hsub hall hdone
      refine ⟨k + 1, scratch', t', heq,
        hsent.trans (Traced.sent_recv _ _ _), hleft, ?_, ?_⟩
      · rwa [List.take_succ_cons, List.append_cons]
      · intro j hj
        cases j with
        | zero => rwa [List.take_zero, List.append_nil]
        | succ j =>
          rw [List.take_succ_cons, List.append_cons]
          exact hleast j (Nat.lt_of_succ_lt_succ hj)

/-- Finding an address leaves a transport in which nothing waits as it
is, and sends nothing. -/
theorem serverAddress_quiet {σ : Type} [Responder σ] {w : World}
    {c : Client (Traced (Exchange σ))}
    (hqueue : c.transport.inner.queue = []) :
    (c.serverAddress w).2.transport.inner = c.transport.inner
      ∧ (c.serverAddress w).2.transport.sent = c.transport.sent := by
  cases serverAddress_transport w c with
  | inl h =>
    rw [h]
    exact ⟨rfl, rfl⟩
  | inr h =>
    rw [h, Traced.sent_close]
    refine ⟨?_, rfl⟩
    show Exchange.mk c.transport.inner.responder [] = _
    rw [← hqueue]

/-- **A payload comes back whole, whatever the order.** The response to a
request is cut into fragments, and what arrives are these fragments, each
at least once, in any order and with any repetitions. Then the request is
sent once, its result is the payload with the status and the association
of the response, and the query is over with the first datagram by which
no fragment is missing. -/
theorem query_reassembles {σ : Type} [Responder σ] {w : World}
    {opcode : Opcode} {assid : UInt16} {data scratch : Bytes}
    {c : Client (Traced (Exchange σ))} {peer : SocketAddr} {h : Header}
    {chunk : Nat} {payload : Bytes} {arrivals : List Fragment}
    (hdata : data.length ≤ maxPayload)
    (hscratch : headerLength + maxPayload ≤ scratch.length)
    (hqueue : c.transport.inner.queue = [])
    (hpeer : (c.serverAddress w).1 = .ok peer)
    (hresponse : h.response = true) (herror : h.error = false)
    (hopcode : h.opcode = opcode.code)
    (hsequence : h.sequence = c.state.sequence + 1)
    (hchunk : 0 < chunk) (hmax : chunk ≤ maxPayload)
    (hoffset : ∀ i, i * chunk < payload.length → i * chunk ≤ 65535)
    (hsub : arrivals ⊆ Fragment.split h chunk 0 payload)
    (hall : Fragment.split h chunk 0 payload ⊆ arrivals)
    (hreact : ∀ request, c.nextRequest? opcode assid data = some request →
      (Responder.react c.transport.inner.responder peer request).1
        = ⟨arrivalsOf arrivals, none⟩) :
    let o := c.query w opcode assid data scratch
    o.result = .ok ⟨h.status, h.assid, payload⟩
      ∧ (∃ request, c.nextRequest? opcode assid data = some request
        ∧ o.client.transport.sent
          = c.transport.sent ++ [(peer, request)])
      ∧ ∃ k, Fragment.split h chunk 0 payload ⊆ arrivals.take k
        ∧ (∀ j < k, ¬ Fragment.split h chunk 0 payload ⊆ arrivals.take j)
        ∧ o.client.transport.inner.queue
          = arrivalsOf (arrivals.drop k) := by
  obtain ⟨request, hrequest⟩ := c.exists_nextRequest opcode assid hdata
  have hfs : Fragment.Carries h 0 payload
      (Fragment.split h chunk 0 payload) := by
    refine Fragment.carries_split hchunk hmax (by decide) fun i hi => ?_
    rw [Nat.zero_add]
    exact Nat.lt_succ_of_le (hoffset i hi)
  obtain ⟨hinner, hsent⟩ := serverAddress_quiet (w := w) hqueue
  -- the reply to the request is all that waits once it is sent
  obtain ⟨hok, hwaits⟩ := Traced.send_of_react
    (t := (c.serverAddress w).2.transport)
    (by rw [hinner, hqueue]) (by rw [hinner]; exact hreact request hrequest)
  have hmissing : ¬ Fragment.split h chunk 0 payload ⊆ [] := by
    obtain ⟨last, hlast, -⟩ := hfs.final
    exact fun hnil => absurd (hnil hlast) List.not_mem_nil
  obtain ⟨k, scratch', t', hcollect, hsame, hleft, hcov, hleast⟩ :=
    collect_gathered c.state.timeout c.state.secondaryTimeout
      (t := (Transport.send (c.serverAddress w).2.transport peer request).2)
      hfs
      (fun f hf => verdict_encode hfs hresponse herror hopcode hsequence hf)
      hscratch hwaits Assembly.gathered_empty hsub hall hmissing
  rw [query_eq_attempt hpeer hrequest]
  dsimp only
  rw [attempt_of_collect hok hcollect]
  refine ⟨rfl, ⟨request, hrequest, ?_⟩, k, hcov, hleast, hleft⟩
  show t'.sent = _
  rw [hsame, Traced.sent_send, hsent]

/-- Three fragments, each twice, the last one first: the fifth datagram
completes the response, and the sixth is left waiting. -/
theorem query_reassembles_six :
    let h := { Header.request 2 .readVariables 1 9 0 with
      response := true, status := 0x0618 }
    let a := Fragment.place h 0 true [97, 61]
    let b := Fragment.place h 2 true [49, 44]
    let e := Fragment.place h 4 false [98]
    let replies := [e, b, e, b, a, a].map fun f => Script.Event.raw f.encode
    let w : World := ⟨0, fun _ => [.v4 #v[192, 0, 2, 1]], .unlimited,
      fun _ => true⟩
    let c : Client (Traced (Exchange Script)) :=
      .new {} ⟨⟨⟨[⟨none, none, none, replies, 0⟩]⟩, []⟩, []⟩
    let o := c.query w .readVariables 9 [] (Bytes.zeros 480)
    o.result = .ok ⟨0x0618, 9, [97, 61, 49, 44, 98]⟩
      ∧ o.client.transport.sent.length = 1
      ∧ o.client.transport.inner.queue = [.datagram a.encode] := by
  intro h a b e replies w c o
  have hsplit : Fragment.split h 2 0 [97, 61, 49, 44, 98] = [a, b, e] := by
    simp [Fragment.split, a, b, e]
  have hpeer : (c.serverAddress w).1
      = .ok ⟨.v4 #v[192, 0, 2, 1], 123⟩ := by decide
  have hoffset : ∀ i, i * 2 < [97, 61, 49, 44, 98].length →
      i * 2 ≤ 65535 := fun i hi => hi.le.trans (by decide)
  obtain ⟨hresult, ⟨request, -, hsent⟩, k, hcov, hleast, hleft⟩ :=
    @query_reassembles Script _ w .readVariables 9 [] (Bytes.zeros 480) c
      _ h 2 [97, 61, 49, 44, 98] [e, b, e, b, a, a] (by decide)
      (Bytes.length_zeros 480).ge rfl hpeer rfl rfl rfl rfl (by decide)
      (by decide) hoffset (by rw [hsplit]; decide) (by rw [hsplit]; decide)
      (fun request hrequest => by
        obtain rfl := Option.some.inj hrequest
        clear hpeer hoffset hsplit hrequest o
        subst c replies a b e h
        rfl)
  rw [hsplit] at hcov hleast
  have hk : k = 5 := by
    have hlow : ¬ k ≤ 4 := fun hle =>
      absurd (List.Subset.trans hcov (List.take_subset_take_left _ hle))
        (by decide)
    have hhigh : ¬ 5 < k := fun hlt => hleast 5 hlt (by decide)
    omega
  rw [hk] at hleft
  exact ⟨hresult, by rw [hsent]; rfl, hleft⟩

end Client

end NtpQuery
