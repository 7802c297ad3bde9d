import NtpQuery.Proofs.Wire.Codec

/-!
# How much of a datagram is read

A datagram is cut to the buffer that it is received into. Of any datagram
no more than a header and a payload is read, so a buffer that has room for
both loses nothing: what was cut off is padding, an authenticator, or a
payload that is too long to be read anyway (`Fragment.decode_take_iff`).
Neither does such a buffer add anything, for only what a datagram has
filled is read back (`Fragment.decode_received_iff`).
-/

namespace NtpQuery.Fragment

variable {d : Bytes} {f : Fragment}

/-- What follows a datagram that can be read is not looked at. -/
theorem decode_append (rest : Bytes) (h : decode d = .ok f) :
    decode (d ++ rest) = .ok f := by
  have hheader := header_of_decode h
  have hlong : headerLength ≤ d.length := by
    unfold Header.decode at hheader
    split at hheader
    · exact Nat.le_add_left _ _
    · exact nomatch hheader
  unfold decode at h ⊢
  rw [hheader] at h
  rw [Header.decode_append rest hheader]
  dsimp only at h ⊢
  split at h
  next hfits =>
    have hroom : f.header.count.toNat
          ≤ ((d ++ rest).drop headerLength).length
        ∧ f.header.count.toNat ≤ maxPayload := by
      rw [List.drop_append_of_le_length hlong, List.length_append]
      exact ⟨Nat.le_add_right_of_le hfits.1, hfits.2⟩
    rw [if_pos hroom, ← h, List.drop_append_of_le_length hlong,
      List.take_append_of_le_length hfits.1]
  next => exact nomatch h

/-- **Cutting a datagram** to no less than a header and a payload leaves all
of it that is read. -/
theorem decode_take_iff {n : Nat} (hn : headerLength + maxPayload ≤ n) :
    decode (d.take n) = .ok f ↔ decode d = .ok f := by
  constructor
  · intro h
    rw [← List.take_append_drop n d]
    exact decode_append _ h
  · intro h
    have hheader := header_of_decode h
    have htake := Header.decode_take hheader
      (Nat.le_trans (Nat.le_add_right _ _) hn)
    unfold decode at h ⊢
    rw [hheader] at h
    rw [htake]
    dsimp only at h ⊢
    split at h
    next hfits =>
      -- the payload that is read ends before the cut
      have hcut : f.header.count.toNat ≤ n - headerLength :=
        Nat.le_trans hfits.2 (Nat.le_sub_of_add_le' hn)
      have hroom : f.header.count.toNat
            ≤ ((d.take n).drop headerLength).length
          ∧ f.header.count.toNat ≤ maxPayload := by
        rw [List.drop_take, List.length_take]
        exact ⟨Nat.le_min.mpr ⟨hcut, hfits.1⟩, hfits.2⟩
      rw [if_pos hroom, ← h, List.drop_take, List.take_take,
        Nat.min_eq_left hcut]
    next => exact nomatch h

/-- **Receiving a datagram** into a buffer, whatever the buffer held, and
reading what was received is reading the datagram. -/
theorem decode_received_iff {buffer : Bytes}
    (hroom : headerLength + maxPayload ≤ buffer.length) :
    let received := d.take buffer.length
    decode ((buffer.overlay received).take received.length) = .ok f
      ↔ decode d = .ok f := by
  intro received
  rw [Bytes.take_overlay (List.length_take_le _ _)]
  exact decode_take_iff hroom

end NtpQuery.Fragment
