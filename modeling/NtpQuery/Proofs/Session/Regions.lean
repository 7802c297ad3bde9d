import Mathlib.Order.Bounds.Defs
import NtpQuery.Proofs.Session.Buffer

/-!
# What a capture buffer holds

Whoever has a buffer can write to its output region, clear that region,
flush it, and overwrite the scratch region, in any order. Two things are
enough to say what the buffer holds then: the *stream*, which is all that
has been written since the output region was cleared, and what the scratch
region has been overwritten with.

The front of the stream, up to the capacity, stands at the front of the
block of memory; the rest of the stream has been dropped and counted; and
behind the front there are zeros up to the scratch region
(`Buffer.Holds`). Each way of handling a buffer keeps this, with the stream
and the scratch region that it makes (`Buffer.Holds.handle`).
-/

namespace NtpQuery

namespace Buffer

/-- **One thing that is done with a buffer.** -/
inductive Handling where
  /-- Bytes are written to the output region. -/
  | write (bytes : Bytes)
  /-- The output region is cleared. -/
  | clear
  /-- The output region is flushed. -/
  | flush
  /-- The scratch region is overwritten. -/
  | overwrite (bytes : Bytes)
  deriving DecidableEq

namespace Handling

/-- What writing has to report: that all was taken. -/
def report : Handling → Option Nat
  | write bytes => some bytes.length
  | _ => none

/-- The stream after a handling. -/
def extend (stream : Bytes) : Handling → Bytes
  | write bytes => stream ++ bytes
  | clear => []
  | _ => stream

/-- The scratch region after a handling. -/
def paint (scratch : Bytes) : Handling → Bytes
  | overwrite bytes => Bytes.overlay scratch bytes
  | _ => scratch

end Handling

/-- **Handling a buffer**; the answer is what writing reports. -/
def handle (b : Buffer) : Handling → Option Nat × Buffer
  | .write bytes => (some (b.write bytes).1, (b.write bytes).2)
  | .clear => (none, b.clear)
  | .flush => (none, b.flush)
  | .overwrite bytes => (none, b.setScratch bytes)

/-- Handling a buffer in one way after the other. -/
def handleAll (b : Buffer) : List Handling → List (Option Nat) × Buffer
  | [] => ([], b)
  | h :: hs =>
    let later := (b.handle h).2.handleAll hs
    ((b.handle h).1 :: later.1, later.2)

/-- **A buffer that holds a stream and a scratch region.** -/
structure Holds (b : Buffer) (stream scratch : Bytes) : Prop where
  /-- The regions lie where they should. -/
  sound : b.Sound
  /-- The output region has the front of the stream. -/
  contents : b.contents = stream.take b.capacity
  /-- The rest of the stream is counted. -/
  dropped : b.dropped = stream.length - b.capacity
  /-- Behind the contents there are zeros, and then the scratch region. -/
  rest : b.storage.drop b.written
    = Bytes.zeros (b.scratchAt - b.written) ++ scratch

/-- The capacity and the place of the scratch region never change. -/
theorem handle_frame (b : Buffer) (h : Handling) :
    (b.handle h).2.capacity = b.capacity
      ∧ (b.handle h).2.scratchAt = b.scratchAt := by
  cases h <;> exact ⟨rfl, rfl⟩

theorem handle_report (b : Buffer) (h : Handling) :
    (b.handle h).1 = h.report := by
  cases h <;> rfl

namespace Holds

variable {b : Buffer} {stream scratch : Bytes}

theorem written_eq (h : b.Holds stream scratch) :
    b.written = min b.capacity stream.length := by
  rw [← h.sound.length_contents, h.contents, List.length_take]

theorem scratch_eq (h : b.Holds stream scratch) : b.scratch = scratch := by
  rw [scratch_eq_drop (Nat.le_trans h.sound.written_le h.sound.capacity_le),
    h.rest, List.drop_left' (Bytes.length_zeros _)]

/-- **Writing** puts the bytes behind the stream. -/
theorem write (h : b.Holds stream scratch) (bytes : Bytes) :
    (b.write bytes).2.Holds (stream ++ bytes) scratch where
  sound := h.sound.write bytes
  contents := by
    show _ = (stream ++ bytes).take b.capacity
    rw [h.sound.contents_write, h.contents, List.take_append]
    congr 2
    have := h.written_eq
    omega
  dropped := by
    show b.dropped + (bytes.length
      - (bytes.take (b.capacity - b.written)).length)
      = (stream ++ bytes).length - b.capacity
    rw [h.dropped, h.written_eq, List.length_take, List.length_append]
    omega
  rest := by
    have hend := Nat.le_trans (h.sound.written_add_le bytes)
      h.sound.capacity_le
    -- what is written takes the place of as many zeros
    rw [h.sound.drop_write]
    show b.storage.drop (b.written + _)
      = Bytes.zeros (b.scratchAt - (b.written + _)) ++ scratch
    rw [← List.drop_drop, h.rest,
      List.drop_append_of_le_length (by rw [Bytes.length_zeros]; omega)]
    unfold Bytes.zeros
    rw [List.drop_replicate, Nat.sub_sub]

/-- **Clearing** starts the stream anew. -/
theorem clear (h : b.Holds stream scratch) : b.clear.Holds [] scratch where
  sound := h.sound.clear
  contents := by rw [Sound.contents_clear, List.take_nil]
  dropped := (Nat.zero_sub _).symm
  rest := by
    show Bytes.zeros b.scratchAt ++ b.scratch = _
    rw [h.scratch_eq]
    rfl

/-- **Overwriting the scratch region** leaves the stream as it is. -/
theorem setScratch (h : b.Holds stream scratch) (bytes : Bytes) :
    (b.setScratch bytes).Holds stream (Bytes.overlay scratch bytes) where
  sound := h.sound.setScratch bytes
  contents := (h.sound.contents_setScratch bytes).trans h.contents
  dropped := h.dropped
  rest := by
    have hle := Nat.le_trans h.sound.written_le h.sound.capacity_le
    have hlen : (Bytes.zeros (b.scratchAt - b.written)).length
        = b.scratchAt - b.written := Bytes.length_zeros _
    show (b.storage.take b.scratchAt
      ++ Bytes.overlay b.scratch bytes).drop b.written = _
    rw [List.drop_append_of_le_length
        (by rw [List.length_take, Nat.min_eq_left h.sound.scratchAt_le]
            exact hle),
      List.drop_take, h.rest, List.take_left' hlen, h.scratch_eq]
    rfl

/-- **Whatever is done with a buffer**, it holds what that makes of the
stream and of the scratch region. -/
theorem handle (h : b.Holds stream scratch) (x : Handling) :
    (b.handle x).2.Holds (Handling.extend stream x)
      (Handling.paint scratch x) := by
  cases x with
  | write bytes => exact h.write bytes
  | clear => exact h.clear
  | flush => exact h
  | overwrite bytes => exact h.setScratch bytes

/-- So it is for one thing after the other. -/
theorem handleAll (h : b.Holds stream scratch) (xs : List Handling) :
    (b.handleAll xs).2.Holds (xs.foldl Handling.extend stream)
      (xs.foldl Handling.paint scratch) := by
  induction xs generalizing b stream scratch with
  | nil => exact h
  | cons x xs ih => exact ih (h.handle x)

end Holds

/-- Every write is told that all was taken. -/
theorem handleAll_reports (b : Buffer) (xs : List Handling) :
    (b.handleAll xs).1 = xs.map Handling.report := by
  induction xs generalizing b with
  | nil => rfl
  | cons x xs ih =>
    show (b.handle x).1 :: ((b.handle x).2.handleAll xs).1 = _
    rw [handle_report, ih, List.map_cons]

theorem handleAll_frame (b : Buffer) (xs : List Handling) :
    (b.handleAll xs).2.capacity = b.capacity
      ∧ (b.handleAll xs).2.scratchAt = b.scratchAt := by
  induction xs generalizing b with
  | nil => exact ⟨rfl, rfl⟩
  | cons x xs ih =>
    obtain ⟨hcapacity, hplace⟩ := ih (b.handle x).2
    obtain ⟨hcapacity', hplace'⟩ := b.handle_frame x
    exact ⟨hcapacity.trans hcapacity', hplace.trans hplace'⟩

/-! ## Allocation -/

/-- Rounding up gives the least multiple that is not below. -/
theorem roundUp_isLeast (n : Nat) :
    IsLeast {m | outputUnit ∣ m ∧ n ≤ m} (roundUp n) := by
  refine ⟨⟨Nat.dvd_mul_left _ _, le_roundUp n⟩, ?_⟩
  rintro m ⟨⟨k, rfl⟩, hle⟩
  unfold roundUp outputUnit at *
  omega

/-- A new buffer holds nothing but zeros. -/
theorem holds_of_allocate {limit : FileLimit} {capacity : Nat}
    {memory : Nat → Bool} {b : Buffer}
    (h : allocate limit capacity memory = .ok b) :
    b.Holds [] (Bytes.zeros (scratchLength limit))
      ∧ b.capacity = capacity ∧ b.scratchAt = roundUp capacity := by
  have hsound := sound_of_allocate h
  obtain rfl := eq_of_allocate h
  refine ⟨⟨hsound, ?_, ?_, ?_⟩, rfl, rfl⟩
  · simp [contents]
  · simp
  · simp [Bytes.zeros]

/-- **The two regions of a capture buffer stay apart.** There is no memory
for a buffer if its two regions need more than 64 bits, whatever the memory
is; else it is had just if there is a block for both. A buffer that is had
has a scratch region of the length that the limit on open files
calls for. Whatever is done with it, writing takes all that is written; the
block of memory holds the front of the stream as far as the capacity goes,
zeros up to the end of the output region, and then the scratch region as it
has been overwritten; and the rest of the stream is counted. -/
theorem regions_apart (limit : FileLimit) (capacity : Nat)
    (memory : Nat → Bool) :
    ∃ room, IsLeast {m | outputUnit ∣ m ∧ capacity ≤ m} room
      ∧ (sizeBound ≤ room ∨ sizeBound ≤ room + scratchLength limit →
        allocate limit capacity memory = .error (.outOfMemory capacity))
      ∧ (∀ e, allocate limit capacity memory = .error e →
        ∃ requested, e = .outOfMemory requested)
      ∧ (room + scratchLength limit < sizeBound →
        memory (room + scratchLength limit) = false →
          allocate limit capacity memory
            = .error (.outOfMemory (room + scratchLength limit)))
      ∧ (room + scratchLength limit < sizeBound →
        memory (room + scratchLength limit) = true →
          ∃ b, allocate limit capacity memory = .ok b)
      ∧ ∀ b, allocate limit capacity memory = .ok b →
        b.scratch.length = scratchLength limit
        ∧ ∀ xs : List Handling,
          let after := (b.handleAll xs).2
          let stream := xs.foldl Handling.extend []
          let kept := min capacity stream.length
          (b.handleAll xs).1 = xs.map Handling.report
            ∧ after.contents = stream.take kept
            ∧ after.dropped = stream.length - kept
            ∧ after.storage = after.contents ++ Bytes.zeros (room - kept)
              ++ after.scratch
            ∧ after.scratch = xs.foldl Handling.paint
              (Bytes.zeros (scratchLength limit)) := by
  have hcases := allocate_cases limit capacity memory
  refine ⟨roundUp capacity, roundUp_isLeast capacity, fun hlarge => ?_,
    fun e he => eq_outOfMemory_of_allocate he, fun hfits hnone => ?_,
    fun hfits hsome => ?_,
    fun b hb => ⟨(frame_of_allocate hb).2, fun xs => ?_⟩⟩
  · rcases hcases with ⟨-, h⟩ | ⟨hlt, -, -⟩ | ⟨hlt, -, -⟩
    · exact h
    · omega
    · omega
  · rcases hcases with ⟨hle, -⟩ | ⟨-, -, h⟩ | ⟨-, hmemory, -⟩
    · omega
    · exact h
    · exact absurd (hmemory.symm.trans hnone) (by decide)
  · rcases hcases with ⟨hle, -⟩ | ⟨-, hmemory, -⟩ | ⟨-, -, h⟩
    · omega
    · exact absurd (hsome.symm.trans hmemory) (by decide)
    · exact ⟨_, h⟩
  · intro after stream kept
    obtain ⟨hnew, hcapacity, hplace⟩ := holds_of_allocate hb
    obtain ⟨hcapacity', hplace'⟩ := handleAll_frame b xs
    have hafter : after.Holds stream _ := hnew.handleAll xs
    have hc : after.capacity = capacity := hcapacity'.trans hcapacity
    have hwritten : after.written = kept := by rw [hafter.written_eq, hc]
    refine ⟨handleAll_reports b xs, ?_, ?_, ?_, hafter.scratch_eq⟩
    · rw [hafter.contents, hc, List.take_eq_take_iff]
      omega
    · rw [hafter.dropped, hc]
      omega
    · rw [hafter.scratch_eq, List.append_assoc, ← hplace, ← hplace',
        ← hwritten, ← hafter.rest]
      exact (List.take_append_drop _ _).symm

end Buffer

end NtpQuery
