import NtpQuery.Proofs.Assembly.Offers
import NtpQuery.Proofs.Client.Collect

/-!
# Contradictory fragments

Fragments of one response should not contradict one another: two of them
are the same, or they share no byte, and none of them reaches past the end
that the final one announces. An insertion looks at part of this only. It
compares the bytes that two fragments claim if their offsets differ, and it
refuses a second final fragment; but a fragment at an offset that is held
is dropped unseen, and the announced end is compared with nothing.

`Assembly.Judged` says for every insertion how it ends, and when a success
leaves no contradiction. A refusal ends the query at once with what was
wrong. A response that reaches past its end is not refused, and no fragment
can complete it any more: the query ends when a wait runs out of time.
-/

namespace NtpQuery

namespace Fragment

/-- **One fragment repeats another**: the same payload at the same offset,
with the same M bit. -/
def Repeats (f g : Fragment) : Prop :=
  f.piece = g.piece ∧ f.header.more = g.header.more

/-- **A fragment that does not contradict others**: it repeats one of them,
or shares its offset and its bytes with none. -/
def Consistent (kept : List Fragment) (f : Fragment) : Prop :=
  (∃ g ∈ kept, f.Repeats g)
    ∨ ∀ g ∈ kept, f.piece.offset ≠ g.piece.offset
      ∧ ∀ i, f.piece.Covers i → ¬ g.piece.Covers i

/-- **Fragments that end in time**: none reaches past the end of a final
one. -/
def InTime (fs : List Fragment) : Prop :=
  ∀ g ∈ fs, g.header.more = false → ∀ f ∈ fs, f.piece.stop ≤ g.piece.stop

/-- Fewer fragments end in time as well. -/
theorem InTime.mono {fs gs : List Fragment} (h : InTime gs)
    (hsub : fs ⊆ gs) : InTime fs :=
  fun g hg hm f hf => h g (hsub hg) hm f (hsub hf)

/-- A repeated fragment makes no difference to when they end. -/
theorem inTime_concat_of_repeats {kept : List Fragment} {f g : Fragment}
    (hg : g ∈ kept) (hrepeats : f.Repeats g) :
    InTime (kept ++ [f]) ↔ InTime kept := by
  refine ⟨fun h => h.mono (List.subset_append_left _ _), fun h => ?_⟩
  -- each of them has a double among those in `kept`
  have hdouble : ∀ x ∈ kept ++ [f], ∃ y ∈ kept, x.Repeats y := by
    intro x hx
    rcases List.mem_append.mp hx with hx | hx
    · exact ⟨x, hx, rfl, rfl⟩
    · exact ⟨g, hg, List.mem_singleton.mp hx ▸ hrepeats⟩
  intro x hx hm y hy
  obtain ⟨x', hx', hpiece, hmore⟩ := hdouble x hx
  obtain ⟨y', hy', hpiece', -⟩ := hdouble y hy
  rw [hpiece, hpiece']
  exact h x' hx' (hmore ▸ hm) y' hy'

end Fragment

namespace Assembly

/-- **An assembly that ends in time**: no piece reaches past the end that
has been announced. -/
def InTime (a : Assembly) : Prop :=
  ∀ e, a.stop = some e → ∀ p ∈ a.pieces, p.stop ≤ e

section

variable {kept : List Fragment} {a : Assembly} {f g : Fragment}

/-- An assembly ends in time if the fragments do that it has taken. -/
theorem Holding.inTime_iff (h : Holding kept a) :
    a.InTime ↔ Fragment.InTime kept := by
  constructor
  · intro ha g hg hm f hf
    exact ha _ ((h.stop _).mpr ⟨g, hg, hm, rfl⟩) _
      (h.mem_pieces_iff.mpr ⟨f, hf, rfl⟩)
  · intro hkept e he p hp
    obtain ⟨g, hg, hm, rfl⟩ := (h.stop e).mp he
    obtain ⟨f, hf, rfl⟩ := h.mem_pieces_iff.mp hp
    exact hkept g hg hm f hf

/-- An offset is held if a fragment with it has been taken. -/
theorem Holding.holds_iff (h : Holding kept a) :
    a.Holds f ↔ ∃ g ∈ kept, f.piece.offset = g.piece.offset := by
  constructor
  · rintro ⟨p, hp, ho⟩
    obtain ⟨g, hg, rfl⟩ := h.mem_pieces_iff.mp hp
    exact ⟨g, hg, ho.symm⟩
  · rintro ⟨g, hg, ho⟩
    exact ⟨g.piece, h.mem_pieces_iff.mpr ⟨g, hg, rfl⟩, ho.symm⟩

/-- A fragment stands apart from all pieces if it does so from all
fragments that have been taken. -/
theorem Holding.admits_iff (h : Holding kept a) :
    a.Admits f ↔ ∀ g ∈ kept, g.piece.Apart f.piece := by
  constructor
  · exact fun ha g hg => ha _ (h.mem_pieces_iff.mpr ⟨g, hg, rfl⟩)
  · intro ha p hp
    obtain ⟨g, hg, rfl⟩ := h.mem_pieces_iff.mp hp
    exact ha g hg

/-- No end is known before a final fragment has been taken. -/
theorem Holding.stop_eq_none_iff (h : Holding kept a) :
    a.stop = none ↔ ∀ g ∈ kept, g.header.more = true := by
  rw [Option.eq_none_iff_forall_ne_some]
  constructor
  · intro hnone g hg
    by_contra hm
    exact hnone _ ((h.stop _).mpr ⟨g, hg, Bool.eq_false_iff.mpr hm, rfl⟩)
  · intro hmore e he
    obtain ⟨g, hg, hm, -⟩ := (h.stop e).mp he
    exact absurd (hmore g hg) (by simp [hm])

/-- **No two fragments with one offset are taken.** -/
theorem Holding.eq_of_offset (h : Holding kept a) (hf : f ∈ kept)
    (hg : g ∈ kept) (ho : f.piece.offset = g.piece.offset) : f = g := by
  have hnodup : (kept.map Fragment.piece).Nodup :=
    h.pieces.nodup_iff.mp (List.Pairwise.nodup h.ordered)
  refine List.inj_on_of_nodup_map hnodup hf hg (by_contra fun hne => ?_)
  have hapart : a.pieces.Pairwise Piece.Apart := h.ordered.imp Or.inl
  rcases hapart.forall (h.mem_pieces_iff.mpr ⟨f, hf, rfl⟩)
    (h.mem_pieces_iff.mpr ⟨g, hg, rfl⟩) hne with hlt | hlt
  · exact absurd hlt.1 (by omega)
  · exact absurd hlt.1 (by omega)

/-- **Why an insertion fails**: the fragment does not stand apart from a
piece that is named, or it ends the response a second time. -/
theorem Ordered.insert_error (h : a.Ordered) {e : ProtocolError}
    (hi : a.insert f = .error e) :
    (∃ p ∈ a.pieces, e = .overlap f.piece.offset p.offset
        ∧ ¬ p.Apart f.piece)
      ∨ (e = .twoFinals ∧ f.header.more = false ∧ a.stop ≠ none) := by
  have hmem : ∀ p, p ∈ a.front f ∨ p ∈ a.back f → p ∈ a.pieces := by
    intro p hp
    rw [← front_append_back a f]
    exact List.mem_append.mpr hp
  rw [insert_eq] at hi
  split at hi
  · exact nomatch hi
  split at hi
  next next hnext =>
    obtain ⟨hhead, hlt⟩ := Option.filter_eq_some_iff.mp hnext
    have hback : next ∈ a.back f := List.mem_of_head? hhead
    refine Or.inl ⟨next, hmem next (Or.inr hback),
      (Except.error.inj hi).symm, ?_⟩
    rintro (hp | hp)
    · exact absurd hp.1 (not_lt.mpr (h.le_of_mem_back hback))
    · exact absurd (of_decide_eq_true hlt) (not_lt.mpr hp.2)
  next =>
    split at hi
    next previous hprevious =>
      obtain ⟨hlast, hlt⟩ := Option.filter_eq_some_iff.mp hprevious
      have hfront : previous ∈ a.front f := List.mem_of_getLast? hlast
      refine Or.inl ⟨previous, hmem previous (Or.inl hfront),
        (Except.error.inj hi).symm, ?_⟩
      rintro (hp | hp)
      · exact absurd (of_decide_eq_true hlt) (not_lt.mpr hp.2)
      · exact absurd hp.1 (not_lt.mpr (lt_of_mem_front hfront).le)
    next =>
      split at hi
      next hfinal =>
        refine Or.inr ⟨(Except.error.inj hi).symm, ?_⟩
        simpa [Option.isSome_iff_ne_none] using hfinal
      next => exact nomatch hi

/-- **A response that reaches past its end is never complete**, whatever
fragments it is offered. -/
theorem Holding.not_isComplete (h : Holding kept a) (hlate : ¬ a.InTime)
    (fs : List Fragment) : (a.offerAll fs).isComplete = false := by
  have hall := h.offerAll fs
  rw [Bool.eq_false_iff, ne_eq, hall.isComplete_iff]
  rintro ⟨g, hg, hm, hstop, -⟩
  refine hlate (h.inTime_iff.mpr fun g' hg' hm' f hf => ?_)
  -- the end that was announced first is the only one
  have hend : g'.piece.stop = g.piece.stop := by
    refine Option.some.inj (((hall.stop _).mpr ⟨g', ?_, hm', rfl⟩).symm.trans
      ((hall.stop _).mpr ⟨g, hg, hm, rfl⟩))
    exact List.mem_append_left _ hg'
  rw [hend]
  exact hstop _ (hall.mem_pieces_iff.mpr ⟨f, List.mem_append_left _ hf, rfl⟩)

/-- **An insertion that succeeds** either repeats an offset and changes
nothing, or takes a fragment that stands apart. -/
theorem Holding.insert_ok (h : Holding kept a) {b : Assembly}
    (hi : a.insert f = .ok b) :
    ((∃ g ∈ kept, f.piece.offset = g.piece.offset) ∧ Holding kept b)
      ∨ ((∀ g ∈ kept, g.piece.Apart f.piece) ∧ Holding (kept ++ [f]) b) := by
  rcases h.ordered.insert_ok hi with ⟨hf, rfl⟩ | ⟨hf, hstop, rfl⟩
  · exact Or.inl ⟨h.holds_iff.mp hf, h⟩
  · exact Or.inr ⟨h.admits_iff.mp hf, h.put hf hstop⟩

end

/-- **How an insertion ends** into an assembly that has taken certain
fragments. -/
structure Judged (kept : List Fragment) (a : Assembly) (f : Fragment) :
    Prop where
  /-- It succeeds if a fragment with its offset has been taken, or if it
  stands apart from all that have and is not a second final one. -/
  accepted : (∃ b, a.insert f = .ok b)
    ↔ (∃ g ∈ kept, f.piece.offset = g.piece.offset)
      ∨ (∀ g ∈ kept, g.piece.Apart f.piece)
        ∧ (f.header.more = true ∨ ∀ g ∈ kept, g.header.more = true)
  /-- It fails with the name of a fragment that it does not stand apart
  from, or as a second final one. -/
  refused : ∀ e, a.insert f = .error e →
    (∃ g ∈ kept, e = .overlap f.piece.offset g.piece.offset
        ∧ ¬ g.piece.Apart f.piece)
      ∨ (e = .twoFinals ∧ f.header.more = false
        ∧ ∃ g ∈ kept, g.header.more = false)
  /-- A failure ends the query that has received the fragment. -/
  reported : ∀ {τ : Type} [Transport τ] {opcode sequence first further}
    {scratch d : Bytes} {t t' : τ} {e : ProtocolError},
    Transport.recv t scratch.length (Client.patience first further a)
      = (.ok d, t') →
    Client.verdict opcode sequence d = .fragment f →
    a.insert f = .error e →
    Client.collect opcode sequence first further a scratch t
      = (.error (.protocol e), Bytes.overlay scratch d, t')
  /-- No success leaves a contradiction exactly if there is none, or if
  the fragment differs from no fragment with its offset and they all end
  in time. -/
  sound : (∀ b, a.insert f = .ok b → f.Consistent kept ∧ b.InTime)
    ↔ (∃ e, a.insert f = .error e)
      ∨ (∀ g ∈ kept, f.piece.offset = g.piece.offset → f.Repeats g)
        ∧ Fragment.InTime (kept ++ [f])
  /-- A response that reaches past its end is never complete. -/
  endless : ∀ b, a.insert f = .ok b → ¬ b.InTime →
    ∀ fs, (b.offerAll fs).isComplete = false

/-- The exact condition under which no success leaves a contradiction. -/
theorem Holding.sound_iff {kept : List Fragment} {a : Assembly}
    (h : Holding kept a) (f : Fragment) :
    (∀ b, a.insert f = .ok b → f.Consistent kept ∧ b.InTime)
      ↔ (∃ e, a.insert f = .error e)
        ∨ (∀ g ∈ kept, f.piece.offset = g.piece.offset → f.Repeats g)
          ∧ Fragment.InTime (kept ++ [f]) := by
  constructor
  · intro hsound
    cases hi : a.insert f with
    | error e => exact Or.inl ⟨e, rfl⟩
    | ok b =>
      refine Or.inr ?_
      obtain ⟨hconsistent, htime⟩ := hsound b hi
      rcases h.insert_ok hi with ⟨⟨g, hg, ho⟩, hb⟩ | ⟨hapart, hb⟩
      · -- the fragment at the offset is the one that is repeated
        have hrepeats : f.Repeats g := by
          rcases hconsistent with ⟨g', hg', hrepeats⟩ | hnone
          · have ho' := congrArg Piece.offset hrepeats.1
            exact h.eq_of_offset hg hg' (ho.symm.trans ho') ▸ hrepeats
          · exact absurd ho (hnone g hg).1
        refine ⟨fun g' hg' ho' => ?_, ?_⟩
        · exact h.eq_of_offset hg hg' (ho.symm.trans ho') ▸ hrepeats
        · exact (Fragment.inTime_concat_of_repeats hg hrepeats).mpr
            (hb.inTime_iff.mp htime)
      · refine ⟨fun g hg ho => absurd ?_
          (h.admits_iff.mpr hapart).not_holds, hb.inTime_iff.mp htime⟩
        exact h.holds_iff.mpr ⟨g, hg, ho⟩
  · rintro (⟨e, he⟩ | ⟨hsame, htime⟩) b hi
    · exact nomatch he.symm.trans hi
    rcases h.insert_ok hi with ⟨⟨g, hg, ho⟩, hb⟩ | ⟨hapart, hb⟩
    · exact ⟨Or.inl ⟨g, hg, hsame g hg ho⟩, hb.inTime_iff.mpr
        (htime.mono (List.subset_append_left _ _))⟩
    · refine ⟨Or.inr fun g hg => ⟨fun ho => ?_, fun i hfi hgi =>
        (hapart g hg).not_covers hgi hfi⟩, hb.inTime_iff.mpr htime⟩
      exact (h.admits_iff.mpr hapart).not_holds
        (h.holds_iff.mpr ⟨g, hg, ho⟩)

/-- **Every insertion is judged so** that an assembly which has taken
certain fragments can meet. -/
theorem Holding.judged {kept : List Fragment} {a : Assembly}
    (h : Holding kept a) (f : Fragment) : Judged kept a f where
  accepted := by
    rw [← h.holds_iff, ← h.admits_iff, ← h.stop_eq_none_iff]
    constructor
    · rintro ⟨b, hi⟩
      exact (h.ordered.insert_ok hi).imp And.left
        fun hput => ⟨hput.1, hput.2.1⟩
    · rintro (hf | ⟨hf, hstop⟩)
      · exact ⟨a, h.ordered.insert_of_holds hf⟩
      · exact ⟨_, h.ordered.insert_of_admits hf hstop⟩
  refused e he := by
    rcases h.ordered.insert_error he with
      ⟨p, hp, heq, hnot⟩ | ⟨heq, hm, hstop⟩
    · obtain ⟨g, hg, rfl⟩ := h.mem_pieces_iff.mp hp
      exact Or.inl ⟨g, hg, heq, hnot⟩
    · refine Or.inr ⟨heq, hm, ?_⟩
      rw [ne_eq, h.stop_eq_none_iff] at hstop
      simpa using hstop
  reported hrecv hverdict he := by
    rw [Client.collect_of_datagram hrecv, hverdict]
    dsimp only
    rw [he]
  sound := h.sound_iff f
  endless b hi hlate fs := by
    rcases h.insert_ok hi with ⟨-, hb⟩ | ⟨-, hb⟩
    · exact hb.not_isComplete hlate fs
    · exact hb.not_isComplete hlate fs

/-- **How every insertion ends**, whatever fragments the assembly has been
offered before. In particular a success leaves a contradiction as soon as
the fragment differs from one with its offset, or one of them reaches past
the end of a final one. -/
theorem judged_offerAll (fs : List Fragment) (f : Fragment) :
    Judged (taken empty fs) (empty.offerAll fs) f :=
  (holding_empty.offerAll fs).judged f

/-- Another payload at a held offset, and a payload behind the end in
either order, are taken for consistent. -/
theorem judged_offerAll_contradicted :
    let h := Header.request 2 .readVariables 9 0 0
    let first := Fragment.place h 0 true [97, 98, 99, 100]
    let other := Fragment.place h 0 false [120, 121]
    let final := Fragment.place h 0 false [97, 98]
    let late := Fragment.place h 9 true [122]
    ((empty.offerAll [first]).insert other = .ok (empty.offerAll [first])
        ∧ ¬ other.Consistent (taken empty [first]))
      ∧ (∃ b, (empty.offerAll [final]).insert late = .ok b ∧ ¬ b.InTime)
      ∧ ∃ b, (empty.offerAll [late]).insert final = .ok b ∧ ¬ b.InTime := by
  intro h first other final late
  have htaken : taken empty [first] = [first] := by decide
  refine ⟨⟨by decide, ?_⟩, ⟨_, rfl, fun htime => ?_⟩,
    ⟨_, rfl, fun htime => ?_⟩⟩
  · rw [htaken]
    rintro (⟨g, hg, hpiece, -⟩ | hnone)
    · rw [List.mem_singleton.mp hg] at hpiece
      exact absurd hpiece (by decide)
    · exact (hnone first (List.mem_singleton_self _)).1 rfl
  · exact absurd (htime 2 rfl ⟨9, [122]⟩ (by decide)) (by decide)
  · exact absurd (htime 2 rfl ⟨9, [122]⟩ (by decide)) (by decide)

end Assembly

end NtpQuery
