import NtpQuery.Proofs.Session.Run
import NtpQuery.Proofs.Session.Buffer

/-!
# The same command line on a tape

A command line is carried out in a capture buffer, which drops what does
not fit and lends a receive buffer with bytes of earlier commands in it.
On a tape nothing is dropped, and the receive buffer can be blank. No
command can tell the difference: it is told that all was taken, and of
the receive buffer it sees no more than what has just been received. So
a capture buffer and a tape answer alike (`Buffer.alike_onTape`), and the
contents of the capture buffer are the front of what the tape holds.
-/

namespace NtpQuery

namespace Buffer

/-- **A capture buffer** of capacity `n` **and a tape** to which the same
was written. -/
structure OnTape (n : Nat) (b : Buffer) (t : Tape) : Prop where
  /-- The capture buffer is sound. -/
  sound : b.Sound
  /-- Its capacity is known. -/
  capacity : b.capacity = n
  /-- The receive buffers have the same length. -/
  scratch : t.scratch.length = b.scratch.length
  /-- The capture buffer holds the front of what the tape holds. -/
  contents : b.contents = t.output.take n

variable {n : Nat} {b : Buffer} {t : Tape}

/-- A cleared capture buffer is like a blank tape. -/
theorem Sound.onTape_clear (hb : b.Sound) :
    OnTape b.capacity b.clear
      (Tape.mk [] (Bytes.zeros b.scratch.length)) := by
  refine ⟨hb.clear, rfl, ?_, ?_⟩
  · show (Bytes.zeros _).length = b.clear.scratch.length
    rw [Bytes.length_zeros, scratch_clear]
  · show b.clear.contents = List.take _ []
    rw [contents_clear, List.take_nil]

/-- **Writing** does the same to both. -/
theorem OnTape.write (h : OnTape n b t) (bytes : Bytes) :
    OnTape n (b.write bytes).2 { t with output := t.output ++ bytes } := by
  have hwritten : b.written = min n t.output.length := by
    rw [← h.sound.length_contents, h.contents, List.length_take]
  refine ⟨h.sound.write bytes, h.capacity, ?_, ?_⟩
  · exact h.scratch.trans (congrArg _ (h.sound.scratch_write bytes).symm)
  · rw [h.sound.contents_write, h.contents, h.capacity, List.take_append,
      hwritten]
    congr 2
    omega

/-- Overwriting the receive buffers does the same to both. -/
theorem OnTape.setScratch (h : OnTape n b t) {bytes bytes' : Bytes}
    (hlen : bytes'.length = b.scratch.length) :
    OnTape n (b.setScratch bytes) { t with scratch := bytes' } := by
  refine ⟨h.sound.setScratch bytes, h.capacity, ?_, ?_⟩
  · exact hlen.trans (h.sound.length_scratch_setScratch bytes).symm
  · exact (h.sound.contents_setScratch bytes).trans h.contents

/-- **A capture buffer answers like a tape.** -/
theorem alike_onTape (n : Nat) : Workspace.Alike (OnTape n) where
  write h bytes := ⟨rfl, h.write bytes⟩
  length_scratch h := h.scratch
  setScratch h _ _ _ hlen := h.setScratch hlen

/-- Meanwhile its receive buffer keeps its length. -/
theorem alike_onTape_of_length (n size : Nat) :
    Workspace.Alike fun b t => OnTape n b t ∧ b.scratch.length = size where
  write h bytes := ⟨rfl, h.1.write bytes,
    (congrArg _ (h.1.sound.scratch_write bytes)).trans h.2⟩
  length_scratch h := h.1.scratch
  setScratch h _ _ _ hlen := ⟨h.1.setScratch hlen,
    (h.1.sound.length_scratch_setScratch _).trans h.2⟩

end Buffer

end NtpQuery
