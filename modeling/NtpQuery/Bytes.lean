/-!
# Bytes

Datagrams, captured output and buffers are runs of bytes. A run is a
list, first byte first, so that cutting, joining and overlaying are the
list operations and their laws.

Words of sixteen bits travel high byte first. `Bytes.word_ofWord` says
that what is written is what is read.
-/

namespace NtpQuery

/-- A run of bytes, first byte first. -/
abbrev Bytes := List UInt8

namespace Bytes

/-- **A word in network order**: its high byte, then its low byte. -/
def ofWord (w : UInt16) : Bytes :=
  [UInt8.ofNat (w.toNat / 256), UInt8.ofNat (w.toNat % 256)]

/-- The word whose high and low bytes are given. -/
def word (high low : UInt8) : UInt16 :=
  UInt16.ofNat (256 * high.toNat + low.toNat)

/-- A run of `n` zero bytes. -/
def zeros (n : Nat) : Bytes :=
  List.replicate n 0

/-- **Overlaying**: `data`, cut to the length of `buffer`, takes the
place of the front of `buffer`; the rest of `buffer` stays. -/
def overlay (buffer data : Bytes) : Bytes :=
  data.take buffer.length ++ buffer.drop data.length

@[simp] theorem length_ofWord (w : UInt16) : (ofWord w).length = 2 := rfl

@[simp] theorem length_zeros (n : Nat) : (zeros n).length = n := by
  simp [zeros]

@[simp] theorem length_overlay (buffer data : Bytes) :
    (overlay buffer data).length = buffer.length := by
  simp only [overlay, List.length_append, List.length_take,
    List.length_drop]
  omega

/-- What is overlaid can be read back, up to the length of the buffer. -/
theorem take_overlay {buffer data : Bytes}
    (h : data.length ≤ buffer.length) :
    (overlay buffer data).take data.length = data := by
  simp [overlay, List.take_of_length_le h]

/-- Reading the two bytes of a word gives the word. -/
theorem word_ofWord (w : UInt16) :
    word (UInt8.ofNat (w.toNat / 256)) (UInt8.ofNat (w.toNat % 256)) = w := by
  have hw : w.toNat < 65536 := w.toNat_lt
  apply UInt16.toNat_inj.mp
  simp only [word, UInt8.toNat_ofNat', UInt16.toNat_ofNat']
  omega

end Bytes

end NtpQuery
