import NtpQuery.Net.Transport

/-!
# Transports that cannot be told apart

Two transports are alike as long as they answer alike, whatever they are
asked. A relation in which this is so, and which no operation leaves, is
`Transport.Alike`. What a client makes of alike transports is alike as
well.

The case in view is that of two traced transports with different pasts
(`Traced.SameSince`): they have the same future, and what is asked of
them from now on is recorded in the same words behind the two pasts.
-/

namespace NtpQuery

/-- **Transports that answer alike** whenever they are related. -/
structure Transport.Alike {τ τ' : Type} [Transport τ] [Transport τ']
    (R : τ → τ' → Prop) : Prop where
  /-- Sending has the same result, and leaves them related. -/
  send : ∀ {t t'}, R t t' → ∀ peer datagram,
    (Transport.send t peer datagram).1 = (Transport.send t' peer datagram).1
      ∧ R (Transport.send t peer datagram).2
        (Transport.send t' peer datagram).2
  /-- So has receiving, and does. -/
  recv : ∀ {t t'}, R t t' → ∀ size wait,
    (Transport.recv t size wait).1 = (Transport.recv t' size wait).1
      ∧ R (Transport.recv t size wait).2 (Transport.recv t' size wait).2
  /-- Closing leaves them related. -/
  close : ∀ {t t'}, R t t' → R (Transport.close t) (Transport.close t')

variable {τ : Type} [Transport τ]

/-- A transport is alike itself. -/
theorem Transport.alike_eq : Transport.Alike (Eq : τ → τ → Prop) where
  send h peer datagram := by rw [h]; exact ⟨rfl, rfl⟩
  recv h size wait := by rw [h]; exact ⟨rfl, rfl⟩
  close h := by rw [h]

namespace Traced

omit [Transport τ] in
/-- **The same since two moments**: the traced transports are in the same
state, and behind the pasts `old` and `old'` they have the same events on
record. -/
structure SameSince (old old' : List NetEvent) (t t' : Traced τ) : Prop where
  /-- The transports that do the work are the same. -/
  inner : t.inner = t'.inner
  /-- The same was asked of them since. -/
  events : ∃ new, t.events = old ++ new ∧ t'.events = old' ++ new

/-- **The past of a transport makes no difference.** -/
theorem alike_sameSince (old old' : List NetEvent) :
    Transport.Alike (SameSince (τ := τ) old old') where
  send {t t'} h peer datagram := by
    obtain ⟨inner, events⟩ := t
    obtain ⟨inner', events'⟩ := t'
    obtain ⟨rfl, new, rfl, rfl⟩ := h
    exact ⟨rfl, rfl, _, List.append_assoc .., List.append_assoc ..⟩
  recv {t t'} h size wait := by
    obtain ⟨inner, events⟩ := t
    obtain ⟨inner', events'⟩ := t'
    obtain ⟨rfl, new, rfl, rfl⟩ := h
    exact ⟨rfl, rfl, _, List.append_assoc .., List.append_assoc ..⟩
  close {t t'} h := by
    obtain ⟨inner, events⟩ := t
    obtain ⟨inner', events'⟩ := t'
    obtain ⟨rfl, new, rfl, rfl⟩ := h
    exact ⟨rfl, _, List.append_assoc .., List.append_assoc ..⟩

end Traced

end NtpQuery
