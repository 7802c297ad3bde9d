import Mathlib.Algebra.Group.Nat.Defs
import NtpQuery.Proofs.Wire.Codec

/-!
# Reading and writing are inverse

Which datagrams can be read is said of their bytes alone
(`Fragment.Readable`): there is a header, its mode is that of control
messages, and the payload that it counts is there and is not longer than
one message carries. What has been read is the payload and a header whose
bytes are those that were read, but for the two leap bits
(`Header.encode_of_decode`). In the other direction, a request is read as
what was written, whatever bytes follow it (`Fragment.decode_request`).
-/

namespace NtpQuery

namespace Header

/-- **A datagram has a header** if it is long enough for one and of the
mode of control messages. -/
theorem exists_decode_iff (d : Bytes) :
    (∃ h, decode d = .ok h)
      ↔ 12 ≤ d.length ∧ ∃ b, d.head? = some b ∧ b.toNat % 8 = 6 := by
  constructor
  · rintro ⟨h, hd⟩
    unfold decode at hd
    split at hd
    next b _ _ _ _ _ _ _ _ _ _ _ _ =>
      split at hd
      next hmode => exact ⟨by simp, b, rfl, hmode⟩
      next => exact absurd hd (by simp)
    next => exact absurd hd (by simp)
  · rintro ⟨hlong, b, hb, hmode⟩
    match d, hlong with
    | b' :: f :: q₁ :: q₂ :: s₁ :: s₂ :: a₁ :: a₂ :: o₁ :: o₂ :: c₁ :: c₂
        :: rest, _ =>
      obtain rfl : b' = b := Option.some.inj hb
      exact ⟨_, if_pos hmode⟩

/-- **The bytes of a header without leap bits**, which are the two highest
bits of the first byte. -/
def withoutLeap : Bytes → Bytes
  | [] => []
  | b :: rest => (b &&& 0x3F) :: rest

/-- A word that was read is written as its two bytes. -/
theorem ofWord_word (high low : UInt8) :
    Bytes.ofWord (Bytes.word high low) = [high, low] := by
  have hh : high.toNat < 256 := high.toNat_lt
  have hl : low.toNat < 256 := low.toNat_lt
  have hword : (Bytes.word high low).toNat = 256 * high.toNat + low.toNat :=
    Nat.mod_eq_of_lt (by omega)
  unfold Bytes.ofWord
  rw [hword, List.cons.injEq, List.cons.injEq]
  refine ⟨UInt8.toNat_inj.mp ?_, UInt8.toNat_inj.mp ?_, rfl⟩
  · rw [UInt8.toNat_ofNat']
    omega
  · rw [UInt8.toNat_ofNat']
    omega

/-- The low bits of a byte, as a remainder. -/
theorem toNat_and_mask (b : UInt8) {mask : UInt8} {n : Nat}
    (hmask : mask.toNat = 2 ^ n - 1) :
    (b &&& mask).toNat = b.toNat % 2 ^ n := by
  rw [UInt8.toNat_and, hmask, Nat.and_two_pow_sub_one_eq_mod]

/-- **What was read is written back** as it was, but for the leap bits. -/
theorem encode_of_decode {d : Bytes} {h : Header} (hd : decode d = .ok h) :
    h.encode = withoutLeap (d.take headerLength) := by
  unfold decode at hd
  split at hd
  next b f q₁ q₂ s₁ s₂ a₁ a₂ o₁ o₂ c₁ c₂ rest =>
    split at hd
    next hmode =>
      obtain rfl := Except.ok.inj hd
      have hb : b.toNat < 256 := b.toNat_lt
      have hf : f.toNat < 256 := f.toNat_lt
      -- version and mode fill the first byte but for the leap bits
      have hfirst : UInt8.ofNat
          (8 * ((UInt8.ofNat (b.toNat / 8 % 8)).toNat % 8) + 6)
          = b &&& 0x3F := by
        apply UInt8.toNat_inj.mp
        rw [toNat_and_mask b (n := 6) rfl, UInt8.toNat_ofNat',
          UInt8.toNat_ofNat']
        omega
      -- three flags and the operation fill the second
      have hbit : ∀ n : Nat, (n % 2 == 1).toNat = n % 2 := by
        intro n
        rcases Nat.mod_two_eq_zero_or_one n with h | h <;> rw [h] <;> rfl
      have hsecond : UInt8.ofNat
          (128 * (f.toNat / 128 % 2 == 1).toNat
            + 64 * (f.toNat / 64 % 2 == 1).toNat
            + 32 * (f.toNat / 32 % 2 == 1).toNat
            + (UInt8.ofNat (f.toNat % 32)).toNat % 32) = f := by
        apply UInt8.toNat_inj.mp
        rw [hbit, hbit, hbit, UInt8.toNat_ofNat', UInt8.toNat_ofNat']
        omega
      unfold encode flags
      dsimp only
      rw [hfirst, hsecond]
      simp only [ofWord_word]
      rfl
    next => exact nomatch hd
  next => exact nomatch hd

/-- A header that was read has a version of three bits and an operation of
five. -/
theorem narrow_of_decode {d : Bytes} {h : Header} (hd : decode d = .ok h) :
    h.version < 8 ∧ h.opcode < 32 := by
  unfold decode at hd
  split at hd
  next b f _ _ _ _ _ _ _ _ _ _ _ =>
    split at hd
    next =>
      obtain rfl := Except.ok.inj hd
      constructor
      · rw [UInt8.lt_iff_toNat_lt]
        show (UInt8.ofNat (b.toNat / 8 % 8)).toNat < 8
        rw [UInt8.toNat_ofNat']
        omega
      · rw [UInt8.lt_iff_toNat_lt]
        show (UInt8.ofNat (f.toNat % 32)).toNat < 32
        rw [UInt8.toNat_ofNat']
        omega
    next => exact nomatch hd
  next => exact nomatch hd

/-- A narrowed header differs in two remainders. -/
theorem narrow_eq (h : Header) :
    h.narrow
      = { h with version := h.version % 8, opcode := h.opcode % 32 } := by
  have hmod : ∀ b m : UInt8, UInt8.ofNat (b.toNat % m.toNat) = b % m := by
    intro b m
    apply UInt8.toNat_inj.mp
    have hb : b.toNat < 256 := b.toNat_lt
    have hle : b.toNat % m.toNat ≤ b.toNat := Nat.mod_le _ _
    rw [UInt8.toNat_ofNat', UInt8.toNat_mod]
    omega
  unfold narrow
  rw [← hmod h.version 8, ← hmod h.opcode 32]
  rfl

/-- A header that fits the wire is not changed by narrowing it. -/
theorem narrow_eq_self {h : Header} (hversion : h.version < 8)
    (hopcode : h.opcode < 32) : h.narrow = h := by
  rw [narrow_eq, UInt8.mod_eq_of_lt hversion, UInt8.mod_eq_of_lt hopcode]

end Header

namespace Fragment

/-- The mode that a datagram is of: the three lowest bits of its first
byte. -/
def mode (d : Bytes) : UInt8 :=
  d.getD 0 0 &&& 7

/-- The length of the payload that a datagram counts, high byte first. -/
def counted (d : Bytes) : Nat :=
  256 * (d.getD 10 0).toNat + (d.getD 11 0).toNat

/-- **A datagram that can be read**: a header of the mode of control
messages, and as much payload as it counts. -/
structure Readable (d : Bytes) : Prop where
  /-- There is a header. -/
  header : headerLength ≤ d.length
  /-- It is that of a control message. -/
  mode : mode d = 6
  /-- It counts no more than a message carries. -/
  fits : counted d ≤ maxPayload
  /-- What it counts is there. -/
  carried : counted d ≤ d.length - headerLength

/-- The mode is that of control messages if the first byte says so. -/
theorem mode_eq_iff (d : Bytes) :
    mode d = 6 ↔ ∃ b, d.head? = some b ∧ b.toNat % 8 = 6 := by
  cases d with
  | nil => exact iff_of_false (by decide) fun ⟨_, hb, _⟩ => nomatch hb
  | cons b rest =>
    have hlow : (b &&& 7).toNat = b.toNat % 8 :=
      Header.toNat_and_mask b (n := 3) rfl
    show b &&& 7 = 6 ↔ _
    rw [← UInt8.toNat_inj, hlow]
    exact ⟨fun h => ⟨b, rfl, h⟩, fun ⟨_, hb, h⟩ => Option.some.inj hb ▸ h⟩

/-- What a datagram counts is what its header counts. -/
theorem counted_of_decode {d : Bytes} {h : Header}
    (hd : Header.decode d = .ok h) : counted d = h.count.toNat := by
  unfold Header.decode at hd
  split at hd
  next c₁ c₂ _ =>
    split at hd
    next =>
      obtain rfl := Except.ok.inj hd
      have h₁ : c₁.toNat < 256 := c₁.toNat_lt
      have h₂ : c₂.toNat < 256 := c₂.toNat_lt
      show 256 * c₁.toNat + c₂.toNat = (256 * c₁.toNat + c₂.toNat) % 65536
      omega
    next => exact nomatch hd
  next => exact nomatch hd

/-- **A datagram can be read** exactly if it is readable. -/
theorem exists_decode_iff (d : Bytes) :
    (∃ f, decode d = .ok f) ↔ Readable d := by
  constructor
  · rintro ⟨f, hd⟩
    have hheader := header_of_decode hd
    obtain ⟨hlen, hmode⟩ := (Header.exists_decode_iff d).mp ⟨_, hheader⟩
    unfold decode at hd
    rw [hheader] at hd
    dsimp only at hd
    split at hd
    next hfits =>
      rw [← counted_of_decode hheader, List.length_drop] at hfits
      exact ⟨hlen, (mode_eq_iff d).mpr hmode, hfits.2, hfits.1⟩
    next => exact nomatch hd
  · intro h
    obtain ⟨header, hheader⟩ := (Header.exists_decode_iff d).mpr
      ⟨h.header, (mode_eq_iff d).mp h.mode⟩
    have hfits : header.count.toNat ≤ (d.drop headerLength).length
        ∧ header.count.toNat ≤ maxPayload := by
      rw [← counted_of_decode hheader, List.length_drop]
      exact ⟨h.carried, h.fits⟩
    unfold decode
    rw [hheader]
    exact ⟨_, if_pos hfits⟩

/-- The payload is what the datagram counts behind the header. -/
theorem data_of_decode {d : Bytes} {f : Fragment} (hd : decode d = .ok f) :
    f.data = (d.drop headerLength).take (counted d) := by
  have hheader := header_of_decode hd
  rw [counted_of_decode hheader]
  unfold decode at hd
  rw [hheader] at hd
  dsimp only at hd
  split at hd
  next => rw [← Except.ok.inj hd]
  next => exact nomatch hd

/-- **A request is read as it was written**, but for what the wire has no
room for. The filling of the request and the bytes that follow it are not
looked at. -/
theorem decode_request {h : Header} {data : Bytes} (extra : Bytes)
    (hcount : h.count.toNat = data.length)
    (hlen : data.length ≤ maxPayload) :
    ∃ request, requestDatagram? h data = some request
      ∧ decode (request ++ extra) = .ok ⟨h.narrow, data⟩ := by
  refine ⟨_, if_pos hlen, ?_⟩
  have hread := decode_encode ⟨h, data⟩
    (Bytes.zeros ((4 - data.length % 4) % 4) ++ extra) hcount hlen
  rwa [← List.append_assoc] at hread

/-- **The codec of control messages is a round trip** in both directions.
A datagram can be read exactly if it is readable; what is read is then the
payload that it counts and a header that is written back as the bytes it
was read from, without the leap bits. And the datagram of a request, with
any bytes behind it, is read as the header and the data of the request,
the version modulo eight and the operation modulo thirty-two. -/
theorem codec_roundTrip :
    (∀ d : Bytes, ((∃ f, decode d = .ok f) ↔ Readable d)
      ∧ ∀ f, decode d = .ok f →
        f.data = (d.drop 12).take (counted d)
          ∧ f.header.encode = Header.withoutLeap (d.take 12)
          ∧ f.header.version < 8 ∧ f.header.opcode < 32)
      ∧ ∀ (h : Header) (data extra : Bytes),
        h.count.toNat = data.length → data.length ≤ 468 →
        ∃ request, requestDatagram? h data = some request
          ∧ decode (request ++ extra) = .ok ⟨{ h with
              version := h.version % 8, opcode := h.opcode % 32 }, data⟩
          ∧ (h.version < 8 → h.opcode < 32 →
            decode (request ++ extra) = .ok ⟨h, data⟩) := by
  refine ⟨fun d => ⟨exists_decode_iff d, fun f hf => ?_⟩,
    fun h data extra hcount hlen => ?_⟩
  · have hheader := header_of_decode hf
    exact ⟨data_of_decode hf, Header.encode_of_decode hheader,
      Header.narrow_of_decode hheader⟩
  · obtain ⟨request, hrequest, hread⟩ := decode_request extra hcount hlen
    refine ⟨request, hrequest, ?_, fun hversion hopcode => ?_⟩
    · rw [hread, Header.narrow_eq]
    · rw [hread, Header.narrow_eq_self hversion hopcode]

/-- A clock response of version 12 with the leap bits set and four bytes
behind its payload: it is read as version 4, and what is written back has
no leap bits. The datagram of a request for it is read as version 4, too. -/
theorem codec_roundTrip_clock :
    let d : Bytes := [0xE6, 0x84, 0, 1, 0, 0, 0, 0, 0, 0, 0, 2, 97, 61,
      9, 9, 9, 9]
    let h : Header := { Header.request 12 .readClock 1 0 2 with
      response := true }
    (∃ f, decode d = .ok f ∧ f.data = [97, 61]
        ∧ f.header.encode = 0x26 :: (d.take 12).drop 1)
      ∧ h.count.toNat = [97, 61].length ∧ [(97 : UInt8), 61].length ≤ 468
      ∧ ∃ request, requestDatagram? h [97, 61] = some request
        ∧ decode (request ++ [9, 9]) = .ok ⟨{ h with version := 4 },
          [97, 61]⟩ := by
  intro d h
  obtain ⟨hread, hwrite⟩ := codec_roundTrip
  have hcount : h.count.toNat = [97, 61].length := by decide
  obtain ⟨hiff, hback⟩ := hread d
  obtain ⟨f, hf⟩ := hiff.mpr ⟨by decide, by decide, by decide, by decide⟩
  obtain ⟨hdata, hbytes, -⟩ := hback f hf
  obtain ⟨request, hrequest, hmodulo, -⟩ :=
    hwrite h [97, 61] [9, 9] hcount (by decide)
  have hfour : ({ h with version := h.version % 8, opcode := h.opcode % 32 } :
      Header) = { h with version := 4 } := by decide
  exact ⟨⟨f, hf, hdata, hbytes⟩, hcount, by decide, request, hrequest,
    by rw [hmodulo, hfour]⟩

end Fragment

end NtpQuery
