import NtpQuery.Proofs.Assembly.Tiling

/-!
# Assemblies offered arbitrary fragments

A server may send whatever it likes. Here an assembly is offered any
fragments in any order; those that change it are *taken*, and the others
– refused, or dropped at a held offset – leave it as it was.

Two things are related by `Assembly.Holding`: the fragments that were
taken, in the order in which they were, and the assembly that came of
them. Each fragment taken keeps the relation (`Assembly.Holding.offer`),
so every sequence of offers does (`Assembly.Holding.offerAll`), and all
that is known of the result is read off it (`Assembly.Faithful`): the
pieces are in order and bounded in number and size however many
fragments were offered, and once the assembly is complete, each byte of
the response comes from the one taken fragment that covers it.
-/

namespace NtpQuery

namespace Assembly

/-- **Offering a fragment.** An insertion that fails changes nothing. -/
def offer (a : Assembly) (f : Fragment) : Assembly :=
  match a.insert f with
  | .ok b => b
  | .error _ => a

/-- The first fragment is always accepted. -/
theorem empty_insert (f : Fragment) :
    empty.insert f = .ok (empty.accept f [] []) := by
  simp [insert, empty]

/-- What is held stays when a fragment is offered. -/
theorem isEmpty_offer {a : Assembly} (ha : a.isEmpty = false)
    (f : Fragment) : (a.offer f).isEmpty = false := by
  unfold offer
  cases hinsert : a.insert f with
  | error e => exact ha
  | ok b =>
    unfold insert at hinsert
    dsimp only at hinsert ⊢
    split at hinsert
    · rwa [← Except.ok.inj hinsert]
    · split at hinsert
      · exact nomatch hinsert
      · split at hinsert
        · exact nomatch hinsert
        · split at hinsert
          · exact nomatch hinsert
          · rw [← Except.ok.inj hinsert]
            exact isEmpty_accept ..

/-- Offering fragments one after another. -/
def offerAll (a : Assembly) (fs : List Fragment) : Assembly :=
  fs.foldl offer a

/-- **The fragments that an assembly takes** of those it is offered one
after another: those that change it. -/
def taken : Assembly → List Fragment → List Fragment
  | _, [] => []
  | a, f :: rest =>
    if a.offer f = a then taken a rest
    else f :: taken (a.offer f) rest

/-- **How an assembly relates to the fragments it has taken**: it holds
their pieces, in order, knows the end of the final one, and repeats the
status and the association of the last. -/
structure Holding (kept : List Fragment) (a : Assembly) : Prop where
  /-- The pieces are in order. -/
  ordered : a.Ordered
  /-- The pieces are those of the fragments. -/
  pieces : a.pieces.Perm (kept.map Fragment.piece)
  /-- The end is that of the final fragment, if it has been taken. -/
  stop : ∀ e, a.stop = some e
    ↔ ∃ f ∈ kept, f.header.more = false ∧ f.piece.stop = e
  /-- The status and the association are those of the last fragment. -/
  last : ∀ f, kept.getLast? = some f
    → a.status = f.header.status ∧ a.assid = f.header.assid

/-- Nothing has been taken before the first offer. -/
theorem holding_empty : Holding [] empty where
  ordered := List.Pairwise.nil
  pieces := List.Perm.nil
  stop := fun e => by simp [empty]
  last := fun f hf => absurd hf (by simp)

section Step

variable {a : Assembly} {f : Fragment} {kept : List Fragment}

/-- **One more fragment taken**: if it stands apart and does not end the
response a second time, the assembly with it holds it as well. -/
theorem Holding.put (h : Holding kept a) (hf : a.Admits f)
    (hstop : f.header.more = true ∨ a.stop = none) :
    Holding (kept ++ [f]) (a.put f) where
  ordered := h.ordered.put hf
  pieces := by
    refine (pieces_put_perm a f).trans ?_
    rw [List.map_append]
    exact ((h.pieces.cons f.piece).trans
      (List.perm_append_singleton f.piece _).symm)
  stop := fun e => by
    rw [stop_put]
    simp only [List.mem_append, List.mem_singleton, or_and_right, exists_or,
      exists_eq_left]
    cases hm : f.header.more with
    | true => simpa using h.stop e
    | false =>
      -- no final fragment has been taken before this one
      have hnone : a.stop = none := hstop.resolve_left (by simp [hm])
      have hno : ¬ ∃ g ∈ kept, g.header.more = false ∧ g.piece.stop = e := by
        rw [← h.stop e, hnone]
        exact Option.some_ne_none e ∘ Eq.symm
      rw [if_neg Bool.false_ne_true, Option.some_inj]
      exact ⟨fun he => Or.inr ⟨rfl, he⟩, fun h => (h.resolve_left hno).2⟩
  last := fun g hg => by
    rw [List.getLast?_concat] at hg
    obtain rfl := Option.some.inj hg
    exact ⟨rfl, rfl⟩

/-- An offer either changes nothing or puts the fragment at its place. -/
theorem Ordered.offer_cases (h : a.Ordered) :
    a.offer f = a
      ∨ (a.Admits f ∧ (f.header.more = true ∨ a.stop = none)
        ∧ a.offer f = a.put f) := by
  unfold offer
  cases hi : a.insert f with
  | error e => exact Or.inl rfl
  | ok b =>
    rcases h.insert_ok hi with ⟨-, hb⟩ | ⟨hf, hstop, hb⟩
    · exact Or.inl hb
    · exact Or.inr ⟨hf, hstop, hb⟩

/-- **What leaves an assembly as it was**: exactly an insertion that
fails, and a fragment whose offset is held. -/
theorem Ordered.offer_eq_self_iff (h : a.Ordered) :
    a.offer f = a ↔ (∃ e, a.insert f = .error e) ∨ a.Holds f := by
  unfold offer
  constructor
  · intro hoff
    cases hi : a.insert f with
    | error e => exact Or.inl ⟨e, rfl⟩
    | ok b =>
      rw [hi] at hoff
      rcases h.insert_ok hi with ⟨hf, -⟩ | ⟨-, -, hb⟩
      · exact Or.inr hf
      · exact absurd (hb.symm.trans hoff) (put_ne a f)
  · rintro (⟨e, he⟩ | hf)
    · rw [he]
    · rw [h.insert_of_holds hf]

/-- **The step**: an offer that changes the assembly takes its fragment,
and one that does not takes none. -/
theorem Holding.offer (h : Holding kept a) (hne : a.offer f ≠ a) :
    Holding (kept ++ [f]) (a.offer f) := by
  rcases h.ordered.offer_cases (f := f) with heq | ⟨hf, hstop, heq⟩
  · exact absurd heq hne
  · rw [heq]
    exact h.put hf hstop

end Step

/-- **The run**: after any sequence of offers the assembly holds what it
held before and what it has taken since. -/
theorem Holding.offerAll {kept : List Fragment} {a : Assembly}
    (h : Holding kept a) (fs : List Fragment) :
    Holding (kept ++ taken a fs) (a.offerAll fs) := by
  induction fs generalizing kept a with
  | nil =>
    rw [taken, List.append_nil]
    exact h
  | cons f fs ih =>
    show Holding (kept ++ taken a (f :: fs)) ((a.offer f).offerAll fs)
    by_cases hoff : a.offer f = a
    · rw [taken, if_pos hoff, hoff]
      exact ih h
    · rw [taken, if_neg hoff, List.append_cons]
      exact ih (h.offer hoff)

/-- Only what is offered can be taken. -/
theorem taken_subset (a : Assembly) (fs : List Fragment) :
    taken a fs ⊆ fs := by
  induction fs generalizing a with
  | nil => exact List.Subset.refl _
  | cons f fs ih =>
    rw [taken]
    split
    · exact List.Subset.trans (ih a) (List.subset_cons_self f fs)
    · exact List.cons_subset_cons f (ih (a.offer f))

/-! ## Room -/

/-- Pieces in order that start in `[s, n)` are at most `n - s`. -/
theorem length_le_of_before {ps : List Piece} {s n : Nat}
    (h : ps.Pairwise Piece.Before)
    (hs : ∀ p ∈ ps, s ≤ p.offset ∧ p.offset < n) : ps.length ≤ n - s := by
  induction ps generalizing s with
  | nil => exact Nat.zero_le _
  | cons p ps ih =>
    obtain ⟨hp, hps⟩ := List.pairwise_cons.mp h
    -- the other pieces start behind the first, which takes up one offset
    have hrest : ps.length ≤ n - (p.offset + 1) :=
      ih hps fun q hq => ⟨(hp q hq).1, (hs q (List.mem_cons_of_mem _ hq)).2⟩
    have hhead := hs p List.mem_cons_self
    rw [List.length_cons]
    omega

/-- Pieces in order that lie in `[s, b)` have at most `b - s` bytes. -/
theorem length_flatMap_le_of_before {ps : List Piece} {s b : Nat}
    (h : ps.Pairwise Piece.Before)
    (hs : ∀ p ∈ ps, s ≤ p.offset ∧ p.stop ≤ b) :
    (ps.flatMap (·.data)).length ≤ b - s := by
  induction ps generalizing s with
  | nil => exact Nat.zero_le _
  | cons p ps ih =>
    obtain ⟨hp, hps⟩ := List.pairwise_cons.mp h
    have hrest : (ps.flatMap (·.data)).length ≤ b - p.stop :=
      ih hps fun q hq => ⟨(hp q hq).2, (hs q (List.mem_cons_of_mem _ hq)).2⟩
    have hhead := hs p List.mem_cons_self
    have hstop : p.stop = p.offset + p.data.length := rfl
    rw [List.flatMap_cons, List.length_append]
    omega

/-! ## What comes of the fragments taken -/

section Outcome

variable {kept : List Fragment} {a : Assembly}

/-- Every piece held is that of a fragment taken, and the other way
round. -/
theorem Holding.mem_pieces_iff (h : Holding kept a) {p : Piece} :
    p ∈ a.pieces ↔ ∃ f ∈ kept, f.piece = p :=
  h.pieces.mem_iff.trans List.mem_map

/-- Two fragments taken never cover the same place. -/
theorem Holding.eq_of_covers (h : Holding kept a) {f g : Fragment}
    (hf : f ∈ kept) (hg : g ∈ kept) {i : Nat} (hfi : f.piece.Covers i)
    (hgi : g.piece.Covers i) : f = g := by
  have hnodup : (kept.map Fragment.piece).Nodup :=
    h.pieces.nodup_iff.mp (List.Pairwise.nodup h.ordered)
  refine List.inj_on_of_nodup_map hnodup hf hg (by_contra fun hne => ?_)
  have hapart : a.pieces.Pairwise Piece.Apart := h.ordered.imp Or.inl
  exact (hapart.forall (h.mem_pieces_iff.mpr ⟨f, hf, rfl⟩)
    (h.mem_pieces_iff.mpr ⟨g, hg, rfl⟩) hne).not_covers hfi hgi

/-- A complete assembly has taken a final fragment, up to whose end its
pieces tile. -/
theorem Holding.isComplete_iff (h : Holding kept a) :
    a.isComplete = true
      ↔ ∃ f ∈ kept, f.header.more = false
        ∧ Piece.Tile f.piece.stop a.pieces := by
  rw [h.ordered.isComplete_iff]
  constructor
  · rintro ⟨e, he, htile⟩
    obtain ⟨f, hf, hm, rfl⟩ := (h.stop e).mp he
    exact ⟨f, hf, hm, htile⟩
  · rintro ⟨f, hf, hm, htile⟩
    exact ⟨f.piece.stop, (h.stop _).mpr ⟨f, hf, hm, rfl⟩, htile⟩

/-- The walk along the pieces of a complete assembly ends at the end of
its final fragment. -/
theorem Holding.tiles_pieces (h : Holding kept a) (hc : a.isComplete = true)
    {f : Fragment} (hf : f ∈ kept) (hm : f.header.more = false) :
    tiles 0 f.piece.stop a.pieces = true := by
  have hstop := (h.stop f.piece.stop).mpr ⟨f, hf, hm, rfl⟩
  unfold isComplete at hc
  rw [hstop] at hc
  exact hc

end Outcome

/-- **What an assembly makes of the fragments it has taken**, whatever
they are. -/
structure Faithful (kept : List Fragment) (a : Assembly) : Prop where
  /-- The pieces held are those of the fragments taken. -/
  pieces : a.pieces.Perm (kept.map Fragment.piece)
  /-- Their offsets increase, and none reaches into the next. -/
  apart : a.pieces.Pairwise fun p q => p.offset < q.offset
    ∧ p.stop ≤ q.offset
  /-- There are never more of them than there are offsets. -/
  length_le : a.pieces.length ≤ 65536
  /-- They never have more bytes than the last offset and a payload. -/
  length_data_le :
    (a.pieces.flatMap (·.data)).length ≤ 65535 + maxPayload
  /-- A fragment at a held offset is dropped. -/
  dropped : ∀ f, a.Holds f → a.insert f = .ok a
  /-- A fragment that is refused or dropped leaves everything as it was,
  and no other does. -/
  unchanged : ∀ f,
    a.offer f = a ↔ (∃ e, a.insert f = .error e) ∨ a.Holds f
  /-- The response is complete once a final fragment has been taken and
  the pieces tile up to its end. -/
  complete : a.isComplete = true
    ↔ ∃ f ∈ kept, f.header.more = false
      ∧ (∀ p ∈ a.pieces, p.stop ≤ f.piece.stop)
      ∧ ∀ i < f.piece.stop, ∃ p ∈ a.pieces, p.Covers i
  /-- A complete response ends where its final fragment does. -/
  length_data : a.isComplete = true → ∀ f ∈ kept, f.header.more = false
    → a.response.data.length = f.piece.stop
  /-- Each of its bytes is that of the one fragment that covers it. -/
  byte : a.isComplete = true → ∀ i < a.response.data.length,
    ∃ f ∈ kept, f.piece.Covers i
      ∧ (∀ g ∈ kept, g.piece.Covers i → g = f)
      ∧ a.response.data[i]? = f.data[i - f.piece.offset]?
  /-- Its status and association are those of the last fragment. -/
  last : a.isComplete = true → ∃ f, kept.getLast? = some f
    ∧ a.response.status = f.header.status
    ∧ a.response.assid = f.header.assid

/-- Fragments of payloads that a message can carry make a faithful
assembly. -/
theorem Holding.faithful {kept : List Fragment} {a : Assembly}
    (h : Holding kept a)
    (hkept : ∀ f ∈ kept, f.data.length ≤ maxPayload) :
    Faithful kept a := by
  -- an offset has 16 bits, so this is where the pieces can lie
  have hroom : ∀ p ∈ a.pieces, (0 ≤ p.offset ∧ p.offset < 65536)
      ∧ p.stop ≤ 65535 + maxPayload := by
    intro p hp
    obtain ⟨f, hf, rfl⟩ := h.mem_pieces_iff.mp hp
    have hoff : f.piece.offset < 65536 := f.header.offset.toNat_lt
    have hstop : f.piece.stop = f.piece.offset + f.data.length := rfl
    have hlen := hkept f hf
    omega
  have hfinal : a.isComplete = true → ∃ f ∈ kept, f.header.more = false
      ∧ tiles 0 f.piece.stop a.pieces = true := by
    intro hc
    obtain ⟨f, hf, hm, -⟩ := h.isComplete_iff.mp hc
    exact ⟨f, hf, hm, h.tiles_pieces hc hf hm⟩
  refine ⟨h.pieces, h.ordered, ?_, ?_, fun f => h.ordered.insert_of_holds,
    fun f => h.ordered.offer_eq_self_iff, h.isComplete_iff, ?_, ?_, ?_⟩
  · exact length_le_of_before h.ordered fun p hp => (hroom p hp).1
  · exact length_flatMap_le_of_before h.ordered
      fun p hp => ⟨(hroom p hp).1.1, (hroom p hp).2⟩
  · intro hc f hf hm
    have hlen := length_flatMap_of_tiles (h.tiles_pieces hc hf hm)
    rw [Nat.zero_add] at hlen
    exact hlen
  · intro hc i hi
    obtain ⟨f, hf, hm, ht⟩ := hfinal hc
    have hlen := length_flatMap_of_tiles ht
    obtain ⟨p, hp, hpi⟩ := covers_of_tiles ht (Nat.zero_le i)
      (by rw [Nat.zero_add] at hlen; exact hlen ▸ hi)
    obtain ⟨g, hg, rfl⟩ := h.mem_pieces_iff.mp hp
    exact ⟨g, hg, hpi, fun g' hg' hg'i => h.eq_of_covers hg' hg hg'i hpi,
      getElem?_flatMap_of_tiles ht hp hpi h.ordered⟩
  · intro hc
    obtain ⟨f, hf, -, -⟩ := hfinal hc
    obtain ⟨g, hg⟩ := List.getLast?_isSome.mpr (List.ne_nil_of_mem hf)
      |> Option.isSome_iff_exists.mp
    exact ⟨g, hg, h.last g hg⟩

/-- **Reassembly is sound against every server.** Whatever fragments a
new assembly is offered, of payloads that a message can carry, it is
faithful to those it has taken. -/
theorem faithful_offerAll (fs : List Fragment)
    (hfs : ∀ f ∈ fs, f.data.length ≤ maxPayload) :
    Faithful (taken empty fs) (empty.offerAll fs) :=
  (holding_empty.offerAll fs).faithful
    fun f hf => hfs f (taken_subset empty fs hf)

/-- A final fragment, one that overlaps it, the missing front, another
payload at the same offset, and a second final fragment: the assembly is
faithful to the first and the third. -/
theorem faithful_offerAll_five :
    let h := Header.request 2 .readVariables 9 0 0
    let fs := [Fragment.place h 2 false [99], Fragment.place h 1 true [7, 8],
      Fragment.place h 0 true [97, 98], Fragment.place h 0 true [1],
      Fragment.place h 65535 false []]
    (∀ f ∈ fs, f.data.length ≤ maxPayload)
      ∧ taken empty fs
        = [Fragment.place h 2 false [99], Fragment.place h 0 true [97, 98]]
      ∧ (empty.offerAll fs).response.data = [97, 98, 99]
      ∧ Faithful (taken empty fs) (empty.offerAll fs) :=
  ⟨by decide, by decide, by decide, faithful_offerAll _ (by decide)⟩

end Assembly

end NtpQuery
