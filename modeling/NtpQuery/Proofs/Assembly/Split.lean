import NtpQuery.Proofs.Assembly.Offers
import NtpQuery.Proofs.Wire.Codec

/-!
# The fragments of a payload

What `Fragment.split` makes of a payload is described by
`Fragment.Carries`: the pieces are in order and follow one another
without a gap, exactly one fragment is final, and a fragment without
payload stands alone. That much is enough to put the payload together
again, so nothing below speaks about how it was cut.

The fragments may arrive in any order and more than once. What an
assembly has gathered of them is known from the *set* of those that have
arrived (`Assembly.Gathered`): a first arrival is put at its place, a
repeated one is dropped, and the response is complete as soon as no
fragment is missing (`Assembly.Gathered.isComplete_iff`).
-/

namespace NtpQuery

namespace Fragment

/-- **The fragments of a payload** whose first byte stands at the place
`start`, all of them with the given header but for the fields that tell
them apart. -/
structure Carries (h : Header) (start : Nat) (payload : Bytes)
    (fs : List Fragment) : Prop where
  /-- The pieces are in order. -/
  ordered : (fs.map piece).Pairwise Piece.Before
  /-- They follow one another without a gap. -/
  tiles :
    Assembly.tiles start (start + payload.length) (fs.map piece) = true
  /-- Together they are the payload. -/
  data : fs.flatMap (·.data) = payload
  /-- There is one final fragment, which ends where the payload does. -/
  final : ∃ f ∈ fs, f.header.more = false
    ∧ f.piece.stop = start + payload.length
    ∧ ∀ g ∈ fs, g.header.more = false → g = f
  /-- A fragment without payload stands alone. -/
  nonempty : ∀ f ∈ fs, f.data = [] → fs = [f]
  /-- The headers are made from the given one. -/
  header : ∀ f ∈ fs, f.header = { h with
    more := f.header.more
    offset := f.header.offset
    count := UInt16.ofNat f.data.length }
  /-- Each payload fits a message. -/
  length_le : ∀ f ∈ fs, f.data.length ≤ maxPayload

variable {h : Header} {chunk start : Nat} {payload : Bytes}

/-- A fragment whose offset fits the header has its piece there. -/
theorem piece_place {more : Bool} {data : Bytes} (hs : start < 65536) :
    (place h start more data).piece = ⟨start, data⟩ := by
  show Piece.mk (UInt16.ofNat start).toNat data = _
  rw [UInt16.toNat_ofNat', Nat.mod_eq_of_lt hs]

/-- **The last fragment** carries what is left of the payload. -/
theorem carries_last (hs : start < 65536)
    (hlen : payload.length ≤ maxPayload) :
    Carries h start payload [place h start false payload] := by
  have hpiece : (place h start false payload).piece = ⟨start, payload⟩ :=
    piece_place hs
  refine ⟨List.pairwise_singleton _ _, ?_, List.append_nil payload,
    ⟨_, List.mem_singleton_self _, rfl, ?_, ?_⟩, ?_, ?_, ?_⟩
  · rw [List.map_singleton, hpiece, Assembly.tiles_cons]
    exact ⟨rfl, beq_self_eq_true _⟩
  · rw [hpiece]
    rfl
  · exact fun g hg _ => List.mem_singleton.mp hg
  · intro f hf _
    rw [List.mem_singleton.mp hf]
  · intro f hf
    rw [List.mem_singleton.mp hf]
    rfl
  · intro f hf
    rw [List.mem_singleton.mp hf]
    exact hlen

/-- **One more fragment in front** carries the bytes in front. -/
theorem Carries.cons {front rest : Bytes} {fs : List Fragment}
    (hfs : Carries h (start + front.length) rest fs)
    (hs : start < 65536) (hfront : 0 < front.length)
    (hrest : 0 < rest.length) (hlen : front.length ≤ maxPayload) :
    Carries h start (front ++ rest) (place h start true front :: fs) := by
  have hpiece : (place h start true front).piece = ⟨start, front⟩ :=
    piece_place hs
  have htotal : start + (front ++ rest).length
      = start + front.length + rest.length := by
    rw [List.length_append, Nat.add_assoc]
  have hbehind : ∀ p ∈ fs.map piece, start + front.length ≤ p.offset :=
    fun p hp => Assembly.le_offset_of_tiles hfs.tiles hp
  obtain ⟨last, hmem, hmore, hstop, hlast⟩ := hfs.final
  refine ⟨?_, ?_, ?_, ⟨last, List.mem_cons_of_mem _ hmem, hmore, ?_, ?_⟩,
    ?_, ?_, ?_⟩
  · rw [List.map_cons, List.pairwise_cons, hpiece]
    refine ⟨fun p hp => ⟨?_, hbehind p hp⟩, hfs.ordered⟩
    exact (Nat.lt_add_of_pos_right hfront).trans_le (hbehind p hp)
  · rw [List.map_cons, Assembly.tiles_cons, hpiece, htotal]
    exact ⟨rfl, hfs.tiles⟩
  · rw [List.flatMap_cons, hfs.data]
    rfl
  · rw [hstop, htotal]
  · intro g hg hgm
    rcases List.mem_cons.mp hg with rfl | hg
    · exact absurd hgm (by simp [place])
    · exact hlast g hg hgm
  · intro f hf hnil
    rcases List.mem_cons.mp hf with rfl | hf
    · exact absurd hfront (by
        rw [show front = [] from hnil]
        exact lt_irrefl 0)
    -- an empty fragment behind would be all that is behind
    · have hone := hfs.nonempty f hf hnil
      have hdata := hfs.data
      rw [hone, List.flatMap_singleton, hnil] at hdata
      exact absurd hrest (by rw [← hdata]; exact lt_irrefl 0)
  · intro f hf
    rcases List.mem_cons.mp hf with rfl | hf
    · rfl
    · exact hfs.header f hf
  · intro f hf
    rcases List.mem_cons.mp hf with rfl | hf
    · exact hlen
    · exact hfs.length_le f hf

/-- **Cutting makes the fragments of the payload**, provided that the
chunks fit a message and that every offset fits a header. -/
theorem carries_split (hchunk : 0 < chunk) (hmax : chunk ≤ maxPayload)
    (hs : start < 65536)
    (hoff : ∀ i, i * chunk < payload.length → start + i * chunk < 65536) :
    Carries h start payload (split h chunk start payload) := by
  fun_induction split h chunk start payload with
  | case1 start payload hlast =>
    exact carries_last hs ((hlast.resolve_left hchunk.ne').trans hmax)
  | case2 start payload hlast ih =>
    have hlt : chunk < payload.length :=
      not_le.mp fun hle => hlast (Or.inr hle)
    have hfront : (payload.take chunk).length = chunk :=
      List.length_take_of_le hlt.le
    have hnext : start + chunk < 65536 := by
      have h1 := hoff 1 (by rwa [Nat.one_mul])
      rwa [Nat.one_mul] at h1
    -- the offsets of the rest are those of the payload but for the first
    have hrest := ih hnext (by
      intro i hi
      rw [List.length_drop] at hi
      have hstep := hoff (i + 1) (by rw [Nat.succ_mul]; omega)
      rw [Nat.succ_mul] at hstep
      omega)
    rw [← hfront] at hrest
    have hcons := hrest.cons hs (by rwa [hfront])
      (by rw [hfront, List.length_drop]; omega) (by rwa [hfront])
    rw [hfront, List.take_append_drop] at hcons
    exact hcons

section Members

variable {fs : List Fragment} {f g : Fragment}

/-- A fragment of a payload is known by its piece. -/
theorem Carries.eq_of_piece_eq (hfs : Carries h start payload fs)
    (hf : f ∈ fs) (hg : g ∈ fs) (heq : f.piece = g.piece) : f = g :=
  List.inj_on_of_nodup_map (List.Pairwise.nodup hfs.ordered) hf hg heq

/-- Different fragments of a payload stand apart. -/
theorem Carries.apart (hfs : Carries h start payload fs) (hf : f ∈ fs)
    (hg : g ∈ fs) (hne : f ≠ g) : f.piece.Apart g.piece := by
  have hapart : (fs.map piece).Pairwise Piece.Apart :=
    hfs.ordered.imp Or.inl
  exact hapart.forall (List.mem_map_of_mem hf) (List.mem_map_of_mem hg)
    (fun heq => hne (hfs.eq_of_piece_eq hf hg heq))

/-- The status and the association stand in every header. -/
theorem Carries.status_eq (hfs : Carries h start payload fs)
    (hf : f ∈ fs) :
    f.header.status = h.status ∧ f.header.assid = h.assid := by
  rw [hfs.header f hf]
  exact ⟨rfl, rfl⟩

end Members

end Fragment

namespace Assembly

/-- **What an assembly has gathered** when the fragments in `seen` have
arrived, some of them perhaps more than once: it has taken each of them,
as the wire carries it. -/
def Gathered (seen : List Fragment) (a : Assembly) : Prop :=
  ∃ kept, Holding kept a ∧ ∀ f, f ∈ kept ↔ f ∈ seen.map Fragment.narrow

/-- Nothing has been gathered at first. -/
theorem gathered_empty : Gathered [] empty :=
  ⟨[], holding_empty, fun _ => Iff.rfl⟩

section Gathering

variable {h : Header} {payload : Bytes} {fs seen : List Fragment}
variable {a : Assembly} {f : Fragment}

theorem Gathered.ordered (hg : Gathered seen a) : a.Ordered := by
  obtain ⟨kept, hkept, -⟩ := hg
  exact hkept.ordered

/-- The pieces held are those of the fragments that have arrived. -/
theorem Gathered.mem_pieces_iff (hg : Gathered seen a) {p : Piece} :
    p ∈ a.pieces ↔ ∃ g ∈ seen, g.piece = p := by
  obtain ⟨kept, hkept, hmem⟩ := hg
  rw [hkept.mem_pieces_iff]
  constructor
  · rintro ⟨k, hk, rfl⟩
    obtain ⟨g, hgs, rfl⟩ := List.mem_map.mp ((hmem k).mp hk)
    exact ⟨g, hgs, rfl⟩
  · rintro ⟨g, hgs, rfl⟩
    exact ⟨g.narrow, (hmem _).mpr (List.mem_map_of_mem hgs), rfl⟩

/-- The end is known once the final fragment has arrived. -/
theorem Gathered.stop_eq_some_iff (hg : Gathered seen a) {e : Nat} :
    a.stop = some e
      ↔ ∃ g ∈ seen, g.header.more = false ∧ g.piece.stop = e := by
  obtain ⟨kept, hkept, hmem⟩ := hg
  rw [hkept.stop]
  constructor
  · rintro ⟨k, hk, hm, rfl⟩
    obtain ⟨g, hgs, rfl⟩ := List.mem_map.mp ((hmem k).mp hk)
    exact ⟨g, hgs, hm, rfl⟩
  · rintro ⟨g, hgs, hm, rfl⟩
    exact ⟨g.narrow, (hmem _).mpr (List.mem_map_of_mem hgs), hm, rfl⟩

/-- Of the fragments of one payload, whichever was the last to be taken
says what the status and the association are. -/
theorem Gathered.status_eq (hg : Gathered seen a)
    (hfs : Fragment.Carries h 0 payload fs) (hseen : seen ⊆ fs)
    (hne : seen ≠ []) : a.status = h.status ∧ a.assid = h.assid := by
  obtain ⟨kept, hkept, hmem⟩ := hg
  obtain ⟨g, hgs⟩ := List.exists_mem_of_ne_nil _ hne
  have hin : g.narrow ∈ kept := (hmem _).mpr (List.mem_map_of_mem hgs)
  have hlast := List.getLast?_eq_some_getLast (List.ne_nil_of_mem hin)
  obtain ⟨k, hk, heq⟩ := List.mem_map.mp
    ((hmem _).mp (List.getLast_mem (List.ne_nil_of_mem hin)))
  rw [(hkept.last _ hlast).1, (hkept.last _ hlast).2, ← heq]
  have hword := hfs.status_eq (hseen hk)
  exact hword

/-- **Every arrival is accepted or dropped.** A fragment that has not
arrived before stands apart from all that have, and ends the response
only if none of them does. -/
theorem Gathered.insert (hg : Gathered seen a)
    (hfs : Fragment.Carries h 0 payload fs) (hseen : seen ⊆ fs)
    (hf : f ∈ fs) :
    ∃ b, a.insert f.narrow = .ok b ∧ Gathered (seen ++ [f]) b := by
  have hord := hg.ordered
  by_cases hold : f ∈ seen
  · refine ⟨a, hord.insert_of_holds
      ⟨f.piece, hg.mem_pieces_iff.mpr ⟨f, hold, rfl⟩, rfl⟩, ?_⟩
    obtain ⟨kept, hkept, hmem⟩ := hg
    refine ⟨kept, hkept, fun g => (hmem g).trans ?_⟩
    rw [List.map_append, List.mem_append, List.map_singleton,
      List.mem_singleton]
    refine ⟨Or.inl, fun hor => hor.elim id ?_⟩
    rintro rfl
    exact List.mem_map_of_mem hold
  · have hadmits : a.Admits f.narrow := by
      intro p hp
      obtain ⟨g, hgs, rfl⟩ := hg.mem_pieces_iff.mp hp
      have hapart := hfs.apart (hseen hgs) hf (fun heq => hold (heq ▸ hgs))
      exact hapart
    -- if the end were known, the one final fragment would have arrived
    have hstop : f.narrow.header.more = true ∨ a.stop = none := by
      by_contra hnot
      obtain ⟨hm, hs⟩ := not_or.mp hnot
      obtain ⟨e, he⟩ := Option.ne_none_iff_exists'.mp hs
      obtain ⟨g, hgs, hgm, -⟩ := hg.stop_eq_some_iff.mp he
      obtain ⟨last, -, -, -, hlast⟩ := hfs.final
      have hfl := hlast f hf (Bool.eq_false_iff.mpr hm)
      have hgl := hlast g (hseen hgs) hgm
      exact hold (hfl ▸ hgl ▸ hgs)
    refine ⟨_, hord.insert_of_admits hadmits hstop, ?_⟩
    obtain ⟨kept, hkept, hmem⟩ := hg
    refine ⟨_, hkept.put hadmits hstop, fun g => ?_⟩
    rw [List.map_append, List.mem_append, List.mem_append, hmem g]
    rfl

/-- **The response is complete as soon as no fragment is missing**, and
not before: the first place of a missing fragment would be in no
piece. -/
theorem Gathered.isComplete_iff (hg : Gathered seen a)
    (hfs : Fragment.Carries h 0 payload fs) (hseen : seen ⊆ fs) :
    a.isComplete = true ↔ fs ⊆ seen := by
  obtain ⟨last, hlast, hmore, hstop, huniq⟩ := hfs.final
  rw [hg.ordered.isComplete_iff]
  constructor
  · rintro ⟨e, he, -, hcov⟩ g hgf
    obtain ⟨l, hl, hlm, rfl⟩ := hg.stop_eq_some_iff.mp he
    obtain rfl := huniq l (hseen hl) hlm
    by_cases hnil : g.data = []
    · rw [hfs.nonempty g hgf hnil] at hseen
      exact List.mem_singleton.mp (hseen hl) ▸ hl
    · have hlen : 0 < g.data.length := List.length_pos_iff.mpr hnil
      have hend : g.piece.stop = g.piece.offset + g.data.length := rfl
      have hfirst : g.piece.Covers g.piece.offset := ⟨le_rfl, by omega⟩
      have hle : g.piece.stop ≤ l.piece.stop := by
        rw [hstop]
        exact stop_le_of_tiles hfs.tiles (List.mem_map_of_mem hgf)
      obtain ⟨p, hp, hpc⟩ := hcov g.piece.offset (by omega)
      obtain ⟨k, hk, rfl⟩ := hg.mem_pieces_iff.mp hp
      have hkg : k = g := by
        by_contra hne
        exact (hfs.apart (hseen hk) hgf hne).not_covers hpc hfirst
      exact hkg ▸ hk
  · intro hall
    refine ⟨last.piece.stop,
      hg.stop_eq_some_iff.mpr ⟨last, hall hlast, hmore, rfl⟩, ?_, ?_⟩
    · intro p hp
      obtain ⟨k, hk, rfl⟩ := hg.mem_pieces_iff.mp hp
      rw [hstop]
      exact stop_le_of_tiles hfs.tiles (List.mem_map_of_mem (hseen hk))
    · intro i hi
      rw [hstop] at hi
      obtain ⟨p, hp, hpi⟩ := covers_of_tiles hfs.tiles (Nat.zero_le i) hi
      obtain ⟨k, hk, rfl⟩ := List.mem_map.mp hp
      exact ⟨k.piece, hg.mem_pieces_iff.mpr ⟨k, hall hk, rfl⟩, hpi⟩

/-- **The response is the payload** when all of its fragments have
arrived: the pieces in order are those that the payload was cut into. -/
theorem Gathered.response_eq (hg : Gathered seen a)
    (hfs : Fragment.Carries h 0 payload fs) (hseen : seen ⊆ fs)
    (hall : fs ⊆ seen) : a.response = ⟨h.status, h.assid, payload⟩ := by
  obtain ⟨last, hlast, -⟩ := hfs.final
  have hword := hg.status_eq hfs hseen (List.ne_nil_of_mem (hall hlast))
  have hpieces : a.pieces = fs.map Fragment.piece := by
    refine List.Pairwise.eq_of_mem_iff hg.ordered hfs.ordered fun p => ?_
    rw [hg.mem_pieces_iff, List.mem_map]
    exact ⟨fun ⟨k, hk, hp⟩ => ⟨k, hseen hk, hp⟩,
      fun ⟨k, hk, hp⟩ => ⟨k, hall hk, hp⟩⟩
  have hdata : a.pieces.flatMap (·.data) = payload := by
    rw [hpieces, List.flatMap_map]
    exact hfs.data
  unfold response
  rw [hword.1, hword.2, hdata]

end Gathering

end Assembly

end NtpQuery
