import NtpQuery.Proofs.Assembly.Order

/-!
# Pieces that tile a response

`Assembly.tiles` walks along the pieces and compares each offset with the
end of the piece before. Read as a statement about places of the
response, it says that no piece reaches past the end and that every
place up to it is in some piece (`Assembly.tiles_iff`) – provided that
the pieces are in order, so that no place is in two of them.

When the pieces tile a response, its bytes are those of the pieces: the
byte at a place is the byte of the piece that covers it
(`Assembly.getElem?_flatMap_of_tiles`).
-/

namespace NtpQuery

/-- **Pieces that make up the places below `e`**: none reaches past `e`,
and every place below `e` is in one of them. -/
def Piece.Tile (e : Nat) (ps : List Piece) : Prop :=
  (∀ p ∈ ps, p.stop ≤ e) ∧ ∀ i < e, ∃ p ∈ ps, p.Covers i

namespace Assembly

variable {s e : Nat} {ps : List Piece}

theorem tiles_cons {p : Piece} :
    tiles s e (p :: ps) = true ↔ p.offset = s ∧ tiles p.stop e ps = true := by
  rw [tiles, Bool.and_eq_true, beq_iff_eq]

theorem le_of_tiles (h : tiles s e ps = true) : s ≤ e := by
  induction ps generalizing s with
  | nil => exact (beq_iff_eq.mp h).le
  | cons p ps ih =>
    obtain ⟨ho, ht⟩ := tiles_cons.mp h
    exact (ho ▸ p.offset_le_stop).trans (ih ht)

theorem stop_le_of_tiles (h : tiles s e ps = true) {p : Piece}
    (hp : p ∈ ps) : p.stop ≤ e := by
  induction ps generalizing s with
  | nil => exact absurd hp List.not_mem_nil
  | cons q ps ih =>
    obtain ⟨-, ht⟩ := tiles_cons.mp h
    rcases List.mem_cons.mp hp with rfl | hp
    · exact le_of_tiles ht
    · exact ih ht hp

theorem le_offset_of_tiles (h : tiles s e ps = true) {p : Piece}
    (hp : p ∈ ps) : s ≤ p.offset := by
  induction ps generalizing s with
  | nil => exact absurd hp List.not_mem_nil
  | cons q ps ih =>
    obtain ⟨ho, ht⟩ := tiles_cons.mp h
    rcases List.mem_cons.mp hp with rfl | hp
    · exact ho.ge
    · exact (ho ▸ q.offset_le_stop).trans (ih ht hp)

/-- Walking along the pieces meets every place. -/
theorem covers_of_tiles (h : tiles s e ps = true) {i : Nat} (hs : s ≤ i)
    (he : i < e) : ∃ p ∈ ps, p.Covers i := by
  induction ps generalizing s with
  | nil =>
    have hse : s = e := beq_iff_eq.mp h
    exact absurd (hs.trans_lt he) (by omega)
  | cons p ps ih =>
    obtain ⟨ho, ht⟩ := tiles_cons.mp h
    by_cases hi : i < p.stop
    · exact ⟨p, List.mem_cons_self, ho ▸ hs, hi⟩
    · obtain ⟨q, hq, hqi⟩ := ih ht (not_lt.mp hi)
      exact ⟨q, List.mem_cons_of_mem _ hq, hqi⟩

/-- The first of several pieces in order starts where the covered places
start: the place `s` can be in no later piece, and if there is no place
to cover then no later piece fits. -/
theorem offset_eq_of_covered {p : Piece}
    (hps : (p :: ps).Pairwise Piece.Before)
    (hs : s ≤ p.offset) (hse : s ≤ e)
    (hstop : ∀ q ∈ p :: ps, q.stop ≤ e)
    (hcov : ∀ i, s ≤ i → i < e → ∃ q ∈ p :: ps, q.Covers i) :
    p.offset = s := by
  have hpe := (p.offset_le_stop).trans (hstop p List.mem_cons_self)
  rcases hse.eq_or_lt with rfl | hlt
  · omega
  obtain ⟨q, hq, hqs, -⟩ := hcov s le_rfl hlt
  rcases List.mem_cons.mp hq with rfl | hq
  · omega
  · have hpq := (List.rel_of_pairwise_cons hps hq).1
    omega

/-- **The walk along the pieces decides whether they tile**, for pieces
in order that start at `s` or later. -/
theorem tiles_iff (hps : ps.Pairwise Piece.Before)
    (hs : ∀ p ∈ ps, s ≤ p.offset) (hse : s ≤ e) :
    tiles s e ps = true
      ↔ (∀ p ∈ ps, p.stop ≤ e)
        ∧ ∀ i, s ≤ i → i < e → ∃ p ∈ ps, p.Covers i := by
  refine ⟨fun h => ⟨fun p hp => stop_le_of_tiles h hp,
    fun i hi he => covers_of_tiles h hi he⟩, ?_⟩
  rintro ⟨hstop, hcov⟩
  induction ps generalizing s with
  | nil =>
    refine beq_iff_eq.mpr (le_antisymm hse (not_lt.mp fun hlt => ?_))
    obtain ⟨p, hp, -⟩ := hcov s le_rfl hlt
    exact absurd hp List.not_mem_nil
  | cons p ps ih =>
    have hbefore : ∀ q ∈ ps, p.Before q :=
      fun q hq => List.rel_of_pairwise_cons hps hq
    refine tiles_cons.mpr ⟨offset_eq_of_covered hps
      (hs p List.mem_cons_self) hse hstop hcov, ?_⟩
    refine ih (List.pairwise_cons.mp hps).2 (fun q hq => (hbefore q hq).2)
      (hstop p List.mem_cons_self)
      (fun q hq => hstop q (List.mem_cons_of_mem _ hq)) ?_
    -- a place behind the first piece is not in it
    intro i hi he
    obtain ⟨q, hq, hqi⟩ := hcov i
      ((hs p List.mem_cons_self).trans (p.offset_le_stop.trans hi)) he
    rcases List.mem_cons.mp hq with rfl | hq
    · exact absurd hqi.2 (not_lt.mpr hi)
    · exact ⟨q, hq, hqi⟩

/-- **An assembly in order is complete** when its final fragment has
arrived and the pieces tile the response up to the end of that one. -/
theorem Ordered.isComplete_iff {a : Assembly} (h : a.Ordered) :
    a.isComplete = true
      ↔ ∃ e, a.stop = some e ∧ Piece.Tile e a.pieces := by
  unfold isComplete Piece.Tile
  rw [Option.any_eq_true]
  refine exists_congr (fun e => and_congr_right (fun _ => ?_))
  rw [tiles_iff h (fun _ _ => Nat.zero_le _) (Nat.zero_le _)]
  exact and_congr_right fun _ =>
    ⟨fun hc i hi => hc i (Nat.zero_le _) hi, fun hc i _ hi => hc i hi⟩

/-- Pieces that tile a response have as many bytes as it has places. -/
theorem length_flatMap_of_tiles (h : tiles s e ps = true) :
    s + (ps.flatMap (·.data)).length = e := by
  induction ps generalizing s with
  | nil => exact beq_iff_eq.mp h
  | cons p ps ih =>
    obtain ⟨rfl, ht⟩ := tiles_cons.mp h
    rw [List.flatMap_cons, List.length_append, ← Nat.add_assoc]
    exact ih ht

/-- **The byte at a place** is the byte of the piece that covers it. -/
theorem getElem?_flatMap_of_tiles (h : tiles s e ps = true) {p : Piece}
    (hp : p ∈ ps) {i : Nat} (hi : p.Covers i)
    (hps : ps.Pairwise Piece.Before) :
    (ps.flatMap (·.data))[i - s]? = p.data[i - p.offset]? := by
  induction ps generalizing s with
  | nil => exact absurd hp List.not_mem_nil
  | cons q ps ih =>
    obtain ⟨rfl, ht⟩ := tiles_cons.mp h
    rw [List.flatMap_cons]
    rcases List.mem_cons.mp hp with rfl | hp
    · have hlt : i - p.offset < p.data.length := by
        have hlen : p.stop = p.offset + p.data.length := rfl
        unfold Piece.Covers at hi
        omega
      exact List.getElem?_append_left hlt
    · have hqp := (List.rel_of_pairwise_cons hps hp).2
      have hle : q.stop ≤ i := hqp.trans hi.1
      have hlen : q.stop = q.offset + q.data.length := rfl
      rw [List.getElem?_append_right (by omega), Nat.sub_sub, ← hlen]
      exact ih ht hp (List.pairwise_cons.mp hps).2

end Assembly

end NtpQuery
