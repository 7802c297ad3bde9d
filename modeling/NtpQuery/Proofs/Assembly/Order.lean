import Mathlib.Data.List.Pairwise
import Mathlib.Data.List.Sort
import Mathlib.Data.List.TakeWhile
import NtpQuery.Wire.Assembly

/-!
# The order of the pieces

The pieces of an assembly stand in order: each of them starts after the
one in front of it starts, and not before that one ends. The order is
what every insertion keeps and what every later fact is read off: two
pieces never claim the same byte, and a list of pieces in order is known
as soon as its members are (`Piece.Before` is asymmetric).

A fragment therefore meets an assembly in one of three ways. Its offset
is held already, and it is dropped (`Assembly.Ordered.insert_of_holds`);
it stands apart from every piece, and it is put at its place unless it is
a second final fragment (`Assembly.Ordered.insert_of_admits`); or it is
refused. `Assembly.Ordered.insert_ok` says that there is no other way to
succeed.
-/

namespace NtpQuery

/-- The piece that a fragment carries. -/
def Fragment.piece (f : Fragment) : Piece :=
  ⟨f.header.offset.toNat, f.data⟩

namespace Piece

/-- **One piece before another**: it starts before the other starts, and
ends before or where the other starts. An empty piece starts where it
ends, so the second condition alone would not do. -/
def Before (p q : Piece) : Prop :=
  p.offset < q.offset ∧ p.stop ≤ q.offset

/-- Two pieces of which one is before the other. -/
def Apart (p q : Piece) : Prop :=
  p.Before q ∨ q.Before p

/-- Whether a place of the response is in a piece. -/
def Covers (p : Piece) (i : Nat) : Prop :=
  p.offset ≤ i ∧ i < p.stop

theorem offset_le_stop (p : Piece) : p.offset ≤ p.stop :=
  Nat.le_add_right _ _

instance : Std.Irrefl Before where
  irrefl _ h := lt_irrefl _ h.1

instance : Std.Antisymm Before where
  antisymm _ _ h h' := absurd (h.1.trans h'.1) (lt_irrefl _)

instance : Std.Symm Apart where
  symm _ _ := Or.symm

/-- **Pieces that are apart share no byte.** -/
theorem Apart.not_covers {p q : Piece} (h : p.Apart q) {i : Nat}
    (hp : p.Covers i) : ¬ q.Covers i := by
  intro hq
  unfold Covers at hp hq
  cases h with
  | inl h => exact absurd (hp.2.trans_le h.2) (not_lt.mpr hq.1)
  | inr h => exact absurd (hq.2.trans_le h.2) (not_lt.mpr hp.1)

end Piece

namespace Assembly

/-- **An assembly in order.** -/
def Ordered (a : Assembly) : Prop :=
  a.pieces.Pairwise Piece.Before

/-- Whether a piece at the offset of the fragment is held. -/
def Holds (a : Assembly) (f : Fragment) : Prop :=
  ∃ p ∈ a.pieces, p.offset = f.piece.offset

/-- Whether a fragment stands apart from all that is held. -/
def Admits (a : Assembly) (f : Fragment) : Prop :=
  ∀ p ∈ a.pieces, p.Apart f.piece

/-- The pieces in front of a fragment. -/
def front (a : Assembly) (f : Fragment) : List Piece :=
  a.pieces.takeWhile (·.offset < f.piece.offset)

/-- The pieces that are not in front of a fragment. -/
def back (a : Assembly) (f : Fragment) : List Piece :=
  a.pieces.dropWhile (·.offset < f.piece.offset)

/-- **The assembly with a fragment put at its place.** -/
def put (a : Assembly) (f : Fragment) : Assembly :=
  a.accept f (a.front f) (a.back f)

theorem front_append_back (a : Assembly) (f : Fragment) :
    a.front f ++ a.back f = a.pieces :=
  List.takeWhile_append_dropWhile

@[simp] theorem pieces_put (a : Assembly) (f : Fragment) :
    (a.put f).pieces = a.front f ++ f.piece :: a.back f := rfl

@[simp] theorem stop_put (a : Assembly) (f : Fragment) :
    (a.put f).stop
      = if f.header.more then a.stop else some f.piece.stop := rfl

/-- Putting a fragment adds its piece and no other. -/
theorem pieces_put_perm (a : Assembly) (f : Fragment) :
    (a.put f).pieces.Perm (f.piece :: a.pieces) := by
  rw [pieces_put, ← front_append_back a f]
  exact List.perm_middle

theorem put_ne (a : Assembly) (f : Fragment) : a.put f ≠ a := by
  intro h
  have hlen := (pieces_put_perm a f).length_eq
  rw [h] at hlen
  exact absurd hlen (Nat.ne_of_lt (Nat.lt_succ_self _))

variable {a : Assembly} {f : Fragment}

theorem lt_of_mem_front {p : Piece} (h : p ∈ a.front f) :
    p.offset < f.piece.offset := by
  simpa using List.mem_takeWhile_imp h

theorem Ordered.back_pairwise (h : a.Ordered) :
    (a.back f).Pairwise Piece.Before :=
  List.Pairwise.sublist (List.dropWhile_sublist _) h

/-- In an assembly in order, what is not in front of a fragment starts at
its offset or later. -/
theorem Ordered.le_of_mem_back (h : a.Ordered) {p : Piece}
    (hp : p ∈ a.back f) : f.piece.offset ≤ p.offset := by
  have hhead := List.head?_dropWhile_not
    (fun q : Piece => decide (q.offset < f.piece.offset)) a.pieces
  have hback := h.back_pairwise (f := f)
  unfold back at hp hback
  cases hd : a.pieces.dropWhile (·.offset < f.piece.offset) with
  | nil => rw [hd] at hp; exact absurd hp List.not_mem_nil
  | cons q rest =>
    rw [hd] at hp hback hhead
    have hq : f.piece.offset ≤ q.offset := by simpa using hhead
    rcases List.mem_cons.mp hp with rfl | hp
    · exact hq
    · exact hq.trans (List.rel_of_pairwise_cons hback hp).1.le

/-- **A held offset shows at the head of what is behind.** -/
theorem Ordered.holds_iff (h : a.Ordered) :
    a.Holds f
      ↔ (a.back f).head?.any (·.offset == f.piece.offset) = true := by
  have hback := h.back_pairwise (f := f)
  constructor
  · rintro ⟨p, hp, ho⟩
    rw [← front_append_back a f, List.mem_append] at hp
    rcases hp with hp | hp
    · exact absurd (lt_of_mem_front hp) (by omega)
    -- what stands behind the fragment starts at its offset or later, in
    -- increasing order: only the first piece can start there
    have hle := fun q => h.le_of_mem_back (f := f) (p := q)
    cases hb : a.back f with
    | nil => rw [hb] at hp; exact absurd hp List.not_mem_nil
    | cons q rest =>
      rw [hb] at hp hback hle
      rcases List.mem_cons.mp hp with rfl | hp
      · simpa using ho
      · have hq := (List.rel_of_pairwise_cons hback hp).1
        exact absurd (hle q List.mem_cons_self) (by omega)
  · intro hany
    obtain ⟨p, hp, ho⟩ := (Option.any_eq_true _ _).mp hany
    refine ⟨p, ?_, beq_iff_eq.mp ho⟩
    rw [← front_append_back a f]
    exact List.mem_append_right _ (List.mem_of_head? hp)

/-- Comparing a fragment with the first piece behind it compares it with
all of them. -/
theorem Ordered.behind_iff (h : a.Ordered) (hf : ¬ a.Holds f) :
    (a.back f).head?.filter (·.offset < f.piece.stop) = none
      ↔ ∀ p ∈ a.back f, f.piece.Before p := by
  have hback := h.back_pairwise (f := f)
  have hlt : ∀ p ∈ a.back f, f.piece.offset < p.offset := by
    intro p hp
    refine lt_of_le_of_ne (h.le_of_mem_back hp) (fun ho => hf ⟨p, ?_, ho.symm⟩)
    exact (List.dropWhile_sublist _).subset hp
  cases hb : a.back f with
  | nil => simp
  | cons q rest =>
    rw [hb] at hback hlt
    rw [List.head?_cons, Option.filter_eq_none_iff]
    constructor
    · intro hq p hp
      have hq : f.piece.stop ≤ q.offset := by simpa using hq q rfl
      refine ⟨hlt p hp, ?_⟩
      rcases List.mem_cons.mp hp with rfl | hp
      · exact hq
      · exact hq.trans (List.rel_of_pairwise_cons hback hp).1.le
    · intro hall q' hq'
      obtain rfl := Option.some.inj hq'
      simpa using (hall q List.mem_cons_self).2

/-- Comparing a fragment with the last piece in front of it compares it
with all of them. -/
theorem Ordered.ahead_iff (h : a.Ordered) :
    (a.front f).getLast?.filter (f.piece.offset < ·.stop) = none
      ↔ ∀ p ∈ a.front f, p.Before f.piece := by
  have hfront : (a.front f).Pairwise Piece.Before :=
    List.Pairwise.sublist (List.takeWhile_sublist _) h
  have hlt : ∀ p ∈ a.front f, p.offset < f.piece.offset :=
    fun p hp => lt_of_mem_front hp
  rcases List.eq_nil_or_concat' (a.front f) with hb | ⟨init, q, hb⟩
  · simp [hb]
  rw [hb] at hfront hlt ⊢
  rw [List.getLast?_concat, Option.filter_eq_none_iff]
  constructor
  · intro hq p hp
    have hq : q.stop ≤ f.piece.offset := by simpa using hq q rfl
    refine ⟨hlt p hp, ?_⟩
    cases List.mem_append.mp hp with
    | inl hp =>
      have hpq := (List.pairwise_append.mp hfront).2.2 p hp q
        (List.mem_singleton_self q)
      exact (hpq.2.trans q.offset_le_stop).trans hq
    | inr hp =>
      obtain rfl := List.mem_singleton.mp hp
      exact hq
  · intro hall q' hq'
    obtain rfl := Option.some.inj hq'
    simpa using (hall q (by simp)).2

/-- A fragment stands apart from all pieces if those in front of it are
before it and those behind it are after it. -/
theorem Ordered.admits_iff (h : a.Ordered) :
    a.Admits f
      ↔ (∀ p ∈ a.front f, p.Before f.piece)
        ∧ ∀ p ∈ a.back f, f.piece.Before p := by
  unfold Admits
  rw [← front_append_back a f, List.forall_mem_append]
  refine and_congr (forall₂_congr (fun p hp => ?_))
    (forall₂_congr (fun p hp => ?_))
  · refine ⟨fun hap => hap.resolve_right (fun hfp => ?_), Or.inl⟩
    exact absurd hfp.1 (not_lt.mpr (lt_of_mem_front hp).le)
  · refine ⟨fun hap => hap.resolve_left (fun hpf => ?_), Or.inr⟩
    exact absurd hpf.1 (not_lt.mpr (h.le_of_mem_back hp))

theorem Admits.not_holds (h : a.Admits f) : ¬ a.Holds f := by
  rintro ⟨p, hp, ho⟩
  cases h p hp with
  | inl hap => exact absurd hap.1 (by omega)
  | inr hap => exact absurd hap.1 (by omega)

/-! ## The three ways of an insertion -/

theorem insert_eq (a : Assembly) (f : Fragment) :
    a.insert f =
      if (a.back f).head?.any (·.offset == f.piece.offset) then .ok a
      else
        match (a.back f).head?.filter (·.offset < f.piece.stop) with
        | some next => .error (.overlap f.piece.offset next.offset)
        | none =>
          match (a.front f).getLast?.filter (f.piece.offset < ·.stop) with
          | some previous =>
            .error (.overlap f.piece.offset previous.offset)
          | none =>
            if !f.header.more && a.stop.isSome then .error .twoFinals
            else .ok (a.put f) := rfl

/-- **A fragment at a held offset is dropped**, whatever it carries. -/
theorem Ordered.insert_of_holds (h : a.Ordered) (hf : a.Holds f) :
    a.insert f = .ok a := by
  rw [insert_eq, if_pos (h.holds_iff.mp hf)]

/-- **A fragment that stands apart is put at its place**, unless it would
end the response a second time. -/
theorem Ordered.insert_of_admits (h : a.Ordered) (hf : a.Admits f)
    (hstop : f.header.more = true ∨ a.stop = none) :
    a.insert f = .ok (a.put f) := by
  have hholds := mt h.holds_iff.mpr hf.not_holds
  have hbehind := (h.behind_iff hf.not_holds).mpr (h.admits_iff.mp hf).2
  have hahead := h.ahead_iff.mpr (h.admits_iff.mp hf).1
  have hend : ¬ (!f.header.more && a.stop.isSome) = true := by
    cases hstop with
    | inl hm => simp [hm]
    | inr hs => simp [hs]
  rw [insert_eq, if_neg hholds, hbehind, hahead]
  exact if_neg hend

/-- **There is no other way to succeed.** An insertion that succeeds has
either dropped a fragment whose offset is held, or put one that stands
apart and does not end the response a second time. -/
theorem Ordered.insert_ok (h : a.Ordered) {b : Assembly}
    (hi : a.insert f = .ok b) :
    (a.Holds f ∧ b = a)
      ∨ (a.Admits f ∧ (f.header.more = true ∨ a.stop = none)
        ∧ b = a.put f) := by
  by_cases hf : a.Holds f
  · rw [h.insert_of_holds hf] at hi
    exact Or.inl ⟨hf, (Except.ok.inj hi).symm⟩
  right
  rw [insert_eq, if_neg (mt h.holds_iff.mpr hf)] at hi
  split at hi
  · exact absurd hi (by simp)
  next hbehind =>
    split at hi
    · exact absurd hi (by simp)
    next hahead =>
      split at hi
      · exact absurd hi (by simp)
      next hend =>
        refine ⟨h.admits_iff.mpr
          ⟨h.ahead_iff.mp hahead, (h.behind_iff hf).mp hbehind⟩, ?_,
          (Except.ok.inj hi).symm⟩
        cases hm : f.header.more with
        | true => exact Or.inl rfl
        | false => exact Or.inr (by simpa [hm] using hend)

/-- **An assembly in order stays in order** when a fragment that stands
apart is put at its place. -/
theorem Ordered.put (h : a.Ordered) (hf : a.Admits f) :
    (a.put f).Ordered := by
  obtain ⟨hfront, hback⟩ := h.admits_iff.mp hf
  unfold Ordered at h ⊢
  rw [← front_append_back a f, List.pairwise_append] at h
  rw [pieces_put, List.pairwise_append, List.pairwise_cons]
  refine ⟨h.1, ⟨hback, h.2.1⟩, fun p hp q hq => ?_⟩
  rcases List.mem_cons.mp hq with rfl | hq
  · exact hfront p hp
  · exact h.2.2 p hp q hq

end Assembly

end NtpQuery
