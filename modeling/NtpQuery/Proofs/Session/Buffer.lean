import NtpQuery.Session.Buffer

/-!
# The two regions of a capture buffer

A buffer that was allocated is *sound*: the output region lies in front
of the scratch region, and what has been written lies in the output
region, below the capacity. Clearing, writing and overwriting the scratch
region keep a buffer sound, and each of them touches one region only. So
the contents of a sound buffer are what was written to it since it was
cleared, up to the capacity (`Buffer.Sound.contents_write`).
-/

namespace NtpQuery

namespace Buffer

/-- **A sound buffer.** -/
structure Sound (b : Buffer) : Prop where
  /-- What has been written does not go past the capacity. -/
  written_le : b.written ≤ b.capacity
  /-- The capacity fits the output region. -/
  capacity_le : b.capacity ≤ b.scratchAt
  /-- Both regions lie in the block of memory. -/
  scratchAt_le : b.scratchAt ≤ b.storage.length

/-- The scratch region, from a place in front of it on. -/
theorem scratch_eq_drop {b : Buffer} {n : Nat} (h : n ≤ b.scratchAt) :
    b.scratch = (b.storage.drop n).drop (b.scratchAt - n) := by
  rw [List.drop_drop, Nat.add_sub_cancel' h]
  rfl

theorem le_roundUp (n : Nat) : n ≤ roundUp n := by
  unfold roundUp outputUnit
  omega

/-- **The three outcomes of allocation.** -/
theorem allocate_cases (limit : FileLimit) (capacity : Nat)
    (memory : Nat → Bool) :
    let total := roundUp capacity + scratchLength limit
    (sizeBound ≤ total
        ∧ allocate limit capacity memory = .error (.outOfMemory capacity))
      ∨ (total < sizeBound ∧ memory total = false
        ∧ allocate limit capacity memory = .error (.outOfMemory total))
      ∨ (total < sizeBound ∧ memory total = true
        ∧ allocate limit capacity memory
          = .ok ⟨Bytes.zeros total, capacity, roundUp capacity, 0, 0⟩) := by
  intro total
  unfold allocate
  dsimp only
  by_cases hbound : sizeBound ≤ total
  · exact Or.inl ⟨hbound, if_pos (Or.inr hbound)⟩
  have hroom : ¬ sizeBound ≤ roundUp capacity := fun h =>
    hbound (Nat.le_add_right_of_le h)
  rw [if_neg (not_or.mpr ⟨hroom, hbound⟩)]
  have hfits := Nat.lt_of_not_le hbound
  by_cases hmemory : memory total = true
  · exact Or.inr (Or.inr ⟨hfits, hmemory, if_pos hmemory⟩)
  · exact Or.inr (Or.inl ⟨hfits, Bool.eq_false_iff.mpr hmemory,
      if_neg hmemory⟩)

/-- **A new buffer** has nothing but zeros. -/
theorem eq_of_allocate {limit : FileLimit} {capacity : Nat}
    {memory : Nat → Bool} {b : Buffer}
    (h : allocate limit capacity memory = .ok b) :
    b = ⟨Bytes.zeros (roundUp capacity + scratchLength limit), capacity,
      roundUp capacity, 0, 0⟩ := by
  rcases allocate_cases limit capacity memory with
    ⟨-, he⟩ | ⟨-, -, he⟩ | ⟨-, -, hok⟩
  · exact nomatch h.symm.trans he
  · exact nomatch h.symm.trans he
  · exact Except.ok.inj (h.symm.trans hok)

/-- **An allocated buffer** is sound. -/
theorem sound_of_allocate {limit : FileLimit} {capacity : Nat}
    {memory : Nat → Bool} {b : Buffer}
    (h : allocate limit capacity memory = .ok b) : b.Sound := by
  obtain rfl := eq_of_allocate h
  refine ⟨Nat.zero_le _, le_roundUp capacity, ?_⟩
  rw [Bytes.length_zeros]
  exact Nat.le_add_right _ _

/-- It has the capacity that was asked for, and a receive buffer of the
length that the limit on open files calls for. -/
theorem frame_of_allocate {limit : FileLimit} {capacity : Nat}
    {memory : Nat → Bool} {b : Buffer}
    (h : allocate limit capacity memory = .ok b) :
    b.capacity = capacity ∧ b.scratch.length = scratchLength limit := by
  obtain rfl := eq_of_allocate h
  refine ⟨rfl, ?_⟩
  show ((Bytes.zeros _).drop _).length = _
  rw [List.length_drop, Bytes.length_zeros, Nat.add_sub_cancel_left]

/-- **Where there is no memory**, the failure says so. -/
theorem eq_outOfMemory_of_allocate {limit : FileLimit} {capacity : Nat}
    {memory : Nat → Bool} {e : Failure}
    (h : allocate limit capacity memory = .error e) :
    ∃ requested, e = .outOfMemory requested := by
  rcases allocate_cases limit capacity memory with
    ⟨-, he⟩ | ⟨-, -, he⟩ | ⟨-, -, hok⟩
  · exact ⟨_, Except.error.inj (h.symm.trans he)⟩
  · exact ⟨_, Except.error.inj (h.symm.trans he)⟩
  · exact nomatch h.symm.trans hok

namespace Sound

variable {b : Buffer}

theorem length_contents (hb : b.Sound) : b.contents.length = b.written := by
  unfold contents
  rw [List.length_take, Nat.min_eq_left]
  exact Nat.le_trans hb.written_le (Nat.le_trans hb.capacity_le hb.scratchAt_le)

/-- **Clearing** leaves nothing in the output region. -/
theorem clear (hb : b.Sound) : b.clear.Sound := by
  refine ⟨Nat.zero_le _, hb.capacity_le, ?_⟩
  show b.scratchAt ≤ (Bytes.zeros b.scratchAt ++ _).length
  rw [List.length_append, Bytes.length_zeros]
  exact Nat.le_add_right _ _

theorem contents_clear (b : Buffer) : b.clear.contents = [] :=
  List.take_zero

/-- Clearing leaves the scratch region alone. -/
theorem scratch_clear (b : Buffer) : b.clear.scratch = b.scratch :=
  List.drop_left' (Bytes.length_zeros _)

/-- Where writing ends is inside the output region. -/
theorem written_add_le (hb : b.Sound) (bytes : Bytes) :
    b.written + (bytes.take (b.capacity - b.written)).length
      ≤ b.capacity := by
  have hle := List.length_take_le (b.capacity - b.written) bytes
  have hwritten := hb.written_le
  omega

/-- **Writing** changes no more than the output region. -/
theorem write (hb : b.Sound) (bytes : Bytes) : (b.write bytes).2.Sound := by
  have hend := hb.written_add_le bytes
  have hroom := Nat.le_trans hb.capacity_le hb.scratchAt_le
  refine ⟨hend, hb.capacity_le, ?_⟩
  show b.scratchAt ≤ (b.storage.take b.written
    ++ bytes.take (b.capacity - b.written)
    ++ b.storage.drop (b.written
      + (bytes.take (b.capacity - b.written)).length)).length
  rw [List.length_append, List.length_append, List.length_take,
    List.length_drop, Nat.min_eq_left (Nat.le_trans hb.written_le hroom)]
  have hscratch := hb.scratchAt_le
  omega

/-- Where writing ends, the block of memory goes on as before. -/
theorem drop_write (hb : b.Sound) (bytes : Bytes) :
    (b.write bytes).2.storage.drop (b.write bytes).2.written
      = b.storage.drop (b.write bytes).2.written := by
  have hfront : (b.storage.take b.written
      ++ bytes.take (b.capacity - b.written)).length
      = b.written + (bytes.take (b.capacity - b.written)).length := by
    rw [List.length_append, show (b.storage.take b.written).length
      = b.written from hb.length_contents]
  exact List.drop_left' hfront

/-- Writing leaves the scratch region alone. -/
theorem scratch_write (hb : b.Sound) (bytes : Bytes) :
    (b.write bytes).2.scratch = b.scratch := by
  have hend : (b.write bytes).2.written ≤ b.scratchAt :=
    Nat.le_trans (hb.written_add_le bytes) hb.capacity_le
  rw [scratch_eq_drop hend, scratch_eq_drop (b := (b.write bytes).2) hend,
    hb.drop_write]
  rfl

/-- **What is written joins the contents**, up to the capacity. -/
theorem contents_write (hb : b.Sound) (bytes : Bytes) :
    (b.write bytes).2.contents
      = b.contents ++ bytes.take (b.capacity - b.written) := by
  have hfront : (b.storage.take b.written).length = b.written :=
    hb.length_contents
  show List.take (b.written + _) (b.storage.take b.written ++ _ ++ _) = _
  exact List.take_left' (by rw [List.length_append, hfront])

/-- **Overwriting the scratch region** leaves the output region alone. -/
theorem setScratch (hb : b.Sound) (bytes : Bytes) :
    (b.setScratch bytes).Sound := by
  refine ⟨hb.written_le, hb.capacity_le, ?_⟩
  show b.scratchAt ≤ (b.storage.take b.scratchAt ++ _).length
  rw [List.length_append, List.length_take,
    Nat.min_eq_left hb.scratchAt_le]
  exact Nat.le_add_right _ _

theorem contents_setScratch (hb : b.Sound) (bytes : Bytes) :
    (b.setScratch bytes).contents = b.contents := by
  have hle := Nat.le_trans hb.written_le hb.capacity_le
  show (b.storage.take b.scratchAt ++ _).take b.written = _
  rw [List.take_append_of_le_length, List.take_take, Nat.min_eq_left hle]
  · rfl
  · rw [List.length_take, Nat.min_eq_left hb.scratchAt_le]
    exact hle

/-- The scratch region keeps its length. -/
theorem length_scratch_setScratch (hb : b.Sound) (bytes : Bytes) :
    (b.setScratch bytes).scratch.length = b.scratch.length := by
  have hlen : (b.storage.take b.scratchAt).length = b.scratchAt := by
    rw [List.length_take, Nat.min_eq_left hb.scratchAt_le]
  show ((b.storage.take b.scratchAt ++ _).drop b.scratchAt).length = _
  rw [List.drop_left' hlen, Bytes.length_overlay]

end Sound

end Buffer

end NtpQuery
