import NtpQuery.Bytes
import NtpQuery.Failure
import NtpQuery.Wire.Header
import NtpQuery.World

/-!
# Capture buffers

An open session holds one block of memory with two regions: the *output*
region takes what commands write, and the *scratch* region lends them
room to receive datagrams. The output region is the capacity that was
asked for, rounded up to a multiple of sixteen; output past the capacity
is dropped and counted, and the writer is told that all was taken. So no
command can see how much room there is.

The scratch region has a bit for each file that the process may open,
and never less room than a datagram needs.
-/

namespace NtpQuery

/-- The unit of the size of an output region. -/
def outputUnit : Nat := 16

/-- The number of files that a limit stands for: a limit that is not
known counts as 1024, and none counts for more than 65536. -/
def FileLimit.descriptors : FileLimit → Nat
  | files count => min count 65536
  | unlimited | unreadable => 1024

/-- **The size of a scratch region.** -/
def scratchLength (limit : FileLimit) : Nat :=
  max ((limit.descriptors + 7) / 8) datagramRoom

/-- The least size that needs more than 64 bits. -/
def sizeBound : Nat := UInt64.size

/-- **A capture buffer.** -/
structure Buffer where
  /-- The block of memory. -/
  storage : Bytes
  /-- The capacity that was asked for. -/
  capacity : Nat
  /-- Where the scratch region starts. -/
  scratchAt : Nat
  /-- The number of bytes that the output region holds. -/
  written : Nat
  /-- The number of bytes that were dropped. -/
  dropped : Nat
  deriving DecidableEq

namespace Buffer

/-- The least multiple of sixteen that is not below `n`. -/
def roundUp (n : Nat) : Nat :=
  (n + (outputUnit - 1)) / outputUnit * outputUnit

/-- **A buffer of a capacity.** There may not be memory for it; sizes
that need more than 64 bits are refused before memory is asked for. -/
def allocate (limit : FileLimit) (capacity : Nat)
    (memory : Nat → Bool := fitsAddressSpace) : Except Failure Buffer :=
  let scratchAt := roundUp capacity
  let total := scratchAt + scratchLength limit
  if sizeBound ≤ scratchAt ∨ sizeBound ≤ total then
    .error (.outOfMemory capacity)
  else if memory total then
    .ok ⟨Bytes.zeros total, capacity, scratchAt, 0, 0⟩
  else .error (.outOfMemory total)

/-- Makes the output region empty and fills it with zeros. -/
def clear (c : Buffer) : Buffer :=
  { c with
    storage := Bytes.zeros c.scratchAt ++ c.storage.drop c.scratchAt
    written := 0
    dropped := 0 }

/-- **Writing** to the output region. The answer is the number of bytes
that were taken: all, whether or not there was room for them. -/
def write (c : Buffer) (bytes : Bytes) : Nat × Buffer :=
  let kept := bytes.take (c.capacity - c.written)
  (bytes.length,
    { c with
      storage := c.storage.take c.written ++ kept
        ++ c.storage.drop (c.written + kept.length)
      written := c.written + kept.length
      dropped := c.dropped + (bytes.length - kept.length) })

/-- **Flushing.** Nothing that is written is held back, so nothing has to
be done. -/
def flush (c : Buffer) : Buffer := c

/-- The bytes that the output region holds. -/
def contents (c : Buffer) : Bytes :=
  c.storage.take c.written

/-- The scratch region. -/
def scratch (c : Buffer) : Bytes :=
  c.storage.drop c.scratchAt

/-- The buffer with its scratch region overwritten. -/
def setScratch (c : Buffer) (bytes : Bytes) : Buffer :=
  { c with
    storage := c.storage.take c.scratchAt ++ Bytes.overlay c.scratch bytes }

end Buffer

end NtpQuery
