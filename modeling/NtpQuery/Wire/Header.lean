import NtpQuery.Bytes
import NtpQuery.Wire.Error

/-!
# Control message headers

A control message starts with twelve bytes:

```text
|LI | VN  |Mode |R|E|M| OpCode  |          Sequence             |
|            Status             |       Association ID          |
|            Offset             |            Count              |
```

`Header.encode` writes them and `Header.decode` reads them. The two
leap bits are written as zero and not looked at; the version keeps its
three low bits and the operation code its five.
-/

namespace NtpQuery

/-- The length of a header. -/
def headerLength : Nat := 12

/-- The greatest payload of one message. -/
def maxPayload : Nat := 468

/-- The greatest length of a datagram: a header, a payload and room for
an authenticator. -/
def datagramRoom : Nat := headerLength + maxPayload + 24

/-- **The operations that the client asks for.** -/
inductive Opcode where
  /-- Read the status words of all associations. -/
  | readStatus
  /-- Read system or peer variables. -/
  | readVariables
  /-- Read clock variables. -/
  | readClock
  deriving DecidableEq, Repr

/-- The number of an operation on the wire. -/
def Opcode.code : Opcode → UInt8
  | readStatus => 1
  | readVariables => 2
  | readClock => 4

/-- **A control message header.** -/
structure Header where
  /-- The NTP version that the sender claims. -/
  version : UInt8
  /-- Whether the message is a response (the R bit). -/
  response : Bool
  /-- Whether the response reports an error (the E bit). -/
  error : Bool
  /-- Whether more of the response follows (the M bit). -/
  more : Bool
  /-- The number of the operation. -/
  opcode : UInt8
  /-- The sequence number, which a response repeats. -/
  sequence : UInt16
  /-- The status word. -/
  status : UInt16
  /-- The association that the message is about; zero for the system. -/
  assid : UInt16
  /-- The place of the payload in the whole response. -/
  offset : UInt16
  /-- The length of the payload. -/
  count : UInt16
  deriving DecidableEq, Repr

namespace Header

/-- The header of a request. -/
def request (version : UInt8) (opcode : Opcode)
    (sequence assid count : UInt16) : Header where
  version := version
  response := false
  error := false
  more := false
  opcode := opcode.code
  sequence := sequence
  status := 0
  assid := assid
  offset := 0
  count := count

/-- The byte with the three flags and the operation. -/
def flags (h : Header) : UInt8 :=
  UInt8.ofNat
    (128 * h.response.toNat + 64 * h.error.toNat + 32 * h.more.toNat
      + h.opcode.toNat % 32)

/-- **The twelve bytes of a header.** -/
def encode (h : Header) : Bytes :=
  [UInt8.ofNat (8 * (h.version.toNat % 8) + 6), h.flags]
    ++ Bytes.ofWord h.sequence ++ Bytes.ofWord h.status
    ++ Bytes.ofWord h.assid ++ Bytes.ofWord h.offset
    ++ Bytes.ofWord h.count

/-- **The header at the front of a datagram.** -/
def decode : Bytes → Except ProtocolError Header
  | b :: f :: q₁ :: q₂ :: s₁ :: s₂ :: a₁ :: a₂ :: o₁ :: o₂ :: c₁ :: c₂
      :: _ =>
    if b.toNat % 8 = 6 then
      .ok {
        version := UInt8.ofNat (b.toNat / 8 % 8)
        response := f.toNat / 128 % 2 == 1
        error := f.toNat / 64 % 2 == 1
        more := f.toNat / 32 % 2 == 1
        opcode := UInt8.ofNat (f.toNat % 32)
        sequence := Bytes.word q₁ q₂
        status := Bytes.word s₁ s₂
        assid := Bytes.word a₁ a₂
        offset := Bytes.word o₁ o₂
        count := Bytes.word c₁ c₂ }
    else .error (.unexpectedMode (b.toNat % 8))
  | short => .error (.tooShort short.length)

@[simp] theorem length_encode (h : Header) : h.encode.length = 12 := rfl

/-- Reading what was written gives the header back, the version modulo
eight and the operation modulo thirty-two. -/
theorem decode_encode (h : Header) (rest : Bytes) :
    decode (h.encode ++ rest) =
      .ok { h with
        version := UInt8.ofNat (h.version.toNat % 8)
        opcode := UInt8.ofNat (h.opcode.toNat % 32) } := by
  obtain ⟨v, r, e, m, op, q, s, a, o, c⟩ := h
  simp only [encode, flags, Bytes.ofWord, List.cons_append,
    List.nil_append, decode, UInt8.toNat_ofNat', Bytes.word_ofWord]
  have hv : (8 * (v.toNat % 8) + 6) % 2 ^ 8 % 8 = 6 := by omega
  have hv' : (8 * (v.toNat % 8) + 6) % 2 ^ 8 / 8 % 8 = v.toNat % 8 := by
    omega
  simp only [hv, hv', if_true]
  have hop : op.toNat % 32 < 32 := Nat.mod_lt _ (by omega)
  cases r <;> cases e <;> cases m <;>
    simp only [Bool.toNat_true, Bool.toNat_false, Except.ok.injEq,
      Header.mk.injEq, true_and, and_true] <;>
    refine ⟨?_, ?_, ?_, ?_⟩ <;>
    first
      | (congr 1; omega)
      | (simp only [beq_iff_eq, beq_eq_false_iff_ne, ne_eq]; omega)

end Header

/-- **A request datagram**: header and data, filled with zeros to a
multiple of four bytes. The data must not be longer than a payload. -/
def requestDatagram? (h : Header) (data : Bytes) : Option Bytes :=
  if data.length ≤ maxPayload then
    some (h.encode ++ data ++ Bytes.zeros ((4 - data.length % 4) % 4))
  else none

end NtpQuery
