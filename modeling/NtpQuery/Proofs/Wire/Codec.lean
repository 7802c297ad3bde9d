import NtpQuery.Wire.Fragment

/-!
# Fragments on the wire

What is written is what is read, but for two fields that the wire gives
fewer bits than a header has: a header comes back *narrowed*. A fragment
whose count is the length of its payload is read from its datagram as it
was, whatever follows it there.
-/

namespace NtpQuery

/-- The header as the wire carries it: three bits of the version and five
of the operation. -/
def Header.narrow (h : Header) : Header :=
  { h with
    version := UInt8.ofNat (h.version.toNat % 8)
    opcode := UInt8.ofNat (h.opcode.toNat % 32) }

/-- A header is read from the front alone: what follows, or how much of
it there is, makes no difference. -/
theorem Header.decode_append {d : Bytes} {h : Header} (rest : Bytes)
    (hd : decode d = .ok h) : decode (d ++ rest) = .ok h := by
  unfold decode at hd
  split at hd
  · exact hd
  · exact absurd hd (by simp)

/-- So does cutting a datagram behind its header. -/
theorem Header.decode_take {d : Bytes} {h : Header} {n : Nat}
    (hd : decode d = .ok h) (hn : 12 ≤ n) : decode (d.take n) = .ok h := by
  obtain ⟨n, rfl⟩ := Nat.exists_eq_add_of_le' hn
  unfold decode at hd
  split at hd
  · exact hd
  · exact absurd hd (by simp)

namespace Fragment

/-- The fragment with its header narrowed. -/
def narrow (f : Fragment) : Fragment :=
  { f with header := f.header.narrow }

/-- The operations of the client fit the wire. -/
theorem narrow_code (o : Opcode) :
    UInt8.ofNat (o.code.toNat % 32) = o.code := by
  cases o <;> rfl

@[simp] theorem length_encode (f : Fragment) :
    f.encode.length = headerLength + f.data.length := by
  rw [encode, List.length_append, Header.length_encode]
  rfl

/-- **A fragment is read from its datagram** with a narrowed header, also
when more bytes follow. -/
theorem decode_encode (f : Fragment) (rest : Bytes)
    (hcount : f.header.count.toNat = f.data.length)
    (hlen : f.data.length ≤ maxPayload) :
    decode (f.encode ++ rest) = .ok f.narrow := by
  unfold decode encode
  rw [List.append_assoc, Header.decode_encode]
  have hdrop : (f.header.encode ++ (f.data ++ rest)).drop headerLength
      = f.data ++ rest := List.drop_left' (Header.length_encode _)
  have hroom : f.header.count.toNat ≤ (f.data ++ rest).length
      ∧ f.header.count.toNat ≤ maxPayload := by
    rw [hcount, List.length_append]
    exact ⟨Nat.le_add_right _ _, hlen⟩
  show (if f.header.count.toNat ≤ (List.drop headerLength _).length
      ∧ f.header.count.toNat ≤ maxPayload then _ else _) = _
  rw [hdrop, if_pos hroom, hcount, List.take_left]
  rfl

/-- **A request datagram** is its header and its data, filled with fewer
than four zeros to a multiple of four bytes. -/
theorem requestDatagram_eq {h : Header} {data d : Bytes}
    (hd : requestDatagram? h data = some d) :
    ∃ n < 4, d = h.encode ++ (data ++ Bytes.zeros n)
      ∧ (data.length + n) % 4 = 0 ∧ data.length ≤ maxPayload := by
  unfold requestDatagram? at hd
  split at hd
  next hlen =>
    refine ⟨(4 - data.length % 4) % 4, Nat.mod_lt _ (by decide), ?_, ?_,
      hlen⟩
    · rw [← Option.some.inj hd, List.append_assoc]
    · omega
  next => exact nomatch hd

/-- A datagram that is read as a fragment starts with a header. -/
theorem header_of_decode {d : Bytes} {f : Fragment}
    (h : decode d = .ok f) : Header.decode d = .ok f.header := by
  unfold decode at h
  split at h
  · exact absurd h (by simp)
  next header hd =>
    dsimp only at h
    split at h
    · rw [hd, ← Except.ok.inj h]
    · exact absurd h (by simp)

end Fragment

end NtpQuery
