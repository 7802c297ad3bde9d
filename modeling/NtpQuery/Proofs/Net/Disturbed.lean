import NtpQuery.Net.Exchange

/-!
# Peers among strangers

Nothing keeps strangers from sending datagrams to a client while it waits
for its peer. A `Disturbed` peer is a peer whose answers arrive with such
datagrams in between: at the front, at the end, and in every gap, as many
as there may be. The datagrams that wait already may be disturbed in the
same way (`Exchange.disturb`).

How the two queues compare is `Strewn`: the second is the first with some
elements added. Whatever is strewn into a list can be said gap by gap
(`strewn_iff_weave`), so a `Disturbed` peer leaves out no way of getting
in between.
-/

namespace NtpQuery

variable {α : Type}

/-- **A list with strays**: the second list is the first one with some
elements added, all of which are `Stray`. -/
inductive Strewn (Stray : α → Prop) : List α → List α → Prop where
  /-- Nothing is added to nothing. -/
  | nil : Strewn Stray [] []
  /-- An element of the list stays. -/
  | keep {l m : List α} (x : α) :
    Strewn Stray l m → Strewn Stray (x :: l) (x :: m)
  /-- An element is added. -/
  | stray {l m : List α} {x : α} : Stray x →
    Strewn Stray l m → Strewn Stray l (x :: m)

/-- **A list with its gaps filled**: `gaps i` comes behind the first `i`
elements. -/
def weave (gaps : Nat → List α) : List α → List α
  | [] => gaps 0
  | x :: l => gaps 0 ++ x :: weave (fun i => gaps (i + 1)) l

namespace Strewn

variable {Stray : α → Prop} {l l' m m' : List α}

/-- Nothing need be added. -/
theorem refl (Stray : α → Prop) (l : List α) : Strewn Stray l l := by
  induction l with
  | nil => exact .nil
  | cons x l ih => exact .keep x ih

/-- Lists with strays are joined to a list with strays. -/
theorem append (h : Strewn Stray l m) (h' : Strewn Stray l' m') :
    Strewn Stray (l ++ l') (m ++ m') := by
  induction h with
  | nil => exact h'
  | keep x _ ih => exact .keep x ih
  | stray hx _ ih => exact .stray hx ih

/-- One more element at the end of both lists. -/
theorem concat (h : Strewn Stray l m) (x : α) :
    Strewn Stray (l ++ [x]) (m ++ [x]) :=
  h.append (.refl Stray [x])

/-- One more stray at the end. -/
theorem concat_stray (h : Strewn Stray l m) {x : α} (hx : Stray x) :
    Strewn Stray l (m ++ [x]) := by
  have h' := h.append (.stray hx .nil)
  rwa [List.append_nil] at h'

/-- Some more strays at the front. -/
theorem stray_append {strays : List α} (hstrays : ∀ x ∈ strays, Stray x)
    (h : Strewn Stray l m) : Strewn Stray l (strays ++ m) := by
  induction strays with
  | nil => exact h
  | cons x strays ih =>
    exact .stray (hstrays x List.mem_cons_self)
      (ih fun y hy => hstrays y (List.mem_cons_of_mem x hy))

/-- What is read off the elements alone, and not off strays, is read off
both lists alike. -/
theorem filterMap_eq {β : Type} {f : α → Option β}
    (hf : ∀ x, Stray x → f x = none) (h : Strewn Stray l m) :
    m.filterMap f = l.filterMap f := by
  induction h with
  | nil => rfl
  | keep x _ ih => rw [List.filterMap_cons, List.filterMap_cons, ih]
  | stray hx _ ih => rw [List.filterMap_cons, hf _ hx, ih]

end Strewn

/-- **Strays can be told gap by gap.** -/
theorem strewn_iff_weave {Stray : α → Prop} {l m : List α} :
    Strewn Stray l m
      ↔ ∃ gaps, (∀ i, ∀ x ∈ gaps i, Stray x) ∧ m = weave gaps l := by
  constructor
  · intro h
    induction h with
    | nil => exact ⟨fun _ => [], fun _ _ h => absurd h List.not_mem_nil, rfl⟩
    | keep x _ ih =>
      obtain ⟨gaps, hgaps, rfl⟩ := ih
      refine ⟨fun | 0 => [] | i + 1 => gaps i, ?_, rfl⟩
      intro i
      cases i with
      | zero => exact fun _ h => absurd h List.not_mem_nil
      | succ i => exact hgaps i
    | @stray l m x hx _ ih =>
      obtain ⟨gaps, hgaps, rfl⟩ := ih
      refine ⟨fun | 0 => x :: gaps 0 | i + 1 => gaps (i + 1), ?_, ?_⟩
      · intro i
        cases i with
        | zero => exact List.forall_mem_cons.mpr ⟨hx, hgaps 0⟩
        | succ i => exact hgaps (i + 1)
      · cases l <;> rfl
  · rintro ⟨gaps, hgaps, rfl⟩
    induction l generalizing gaps with
    | nil =>
      have h := Strewn.stray_append (hgaps 0) .nil
      rwa [List.append_nil] at h
    | cons x l ih =>
      exact Strewn.stray_append (hgaps 0)
        (.keep x (ih _ fun i => hgaps (i + 1)))

/-- **A peer among strangers.** -/
structure Disturbed (σ : Type) where
  /-- The peer. -/
  responder : σ
  /-- What strangers send: `noise n i` gets in behind the first `i` of the
  arrivals that sending number `n` from now on brings. -/
  noise : Nat → Nat → List Bytes

/-- The arrivals with datagrams of strangers in their gaps. -/
def disturb (noise : Nat → List Bytes) (arrivals : List Arrival) :
    List Arrival :=
  weave (fun i => (noise i).map .datagram) arrivals

variable {σ : Type}

instance [Responder σ] : Responder (Disturbed σ) where
  react s peer datagram :=
    let (reaction, responder) := Responder.react s.responder peer datagram
    ({ reaction with arrivals := disturb (s.noise 0) reaction.arrivals },
      ⟨responder, fun n => s.noise (n + 1)⟩)

/-- **An exchange among strangers**: `noise 0` gets in between what waits
already, and `noise n` between what sending number `n` brings, counted
from one. -/
def Exchange.disturb (noise : Nat → Nat → List Bytes) (t : Exchange σ) :
    Exchange (Disturbed σ) :=
  ⟨⟨t.responder, fun n => noise (n + 1)⟩, NtpQuery.disturb (noise 0) t.queue⟩

/-- An arrival that is one of certain datagrams. -/
def Arrival.Stray (P : Bytes → Prop) : Arrival → Prop
  | datagram d => P d
  | failure _ => False

/-- An event that is the receiving of one of certain datagrams. -/
def NetEvent.Stray (P : Bytes → Prop) : NetEvent → Prop
  | send _ _ _ => False
  | recv _ x => x.Stray P
  | close => False

/-- What is disturbed by certain datagrams is strewn with them. -/
theorem strewn_disturb {P : Bytes → Prop} {noise : Nat → List Bytes}
    (hnoise : ∀ i, ∀ d ∈ noise i, P d) (arrivals : List Arrival) :
    Strewn (Arrival.Stray P) arrivals (disturb noise arrivals) := by
  refine strewn_iff_weave.mpr ⟨_, ?_, rfl⟩
  intro i x hx
  obtain ⟨d, hd, rfl⟩ := List.mem_map.mp hx
  exact hnoise i d hd

namespace Disturbed

/-- **An exchange and the same among strangers**, who send certain
datagrams only: since the pasts `old` and `old'`, the same is on record,
with such datagrams received in between. -/
structure Beside (P : Bytes → Prop) (old old' : List NetEvent)
    (t : Traced (Exchange σ)) (t' : Traced (Exchange (Disturbed σ))) :
    Prop where
  /-- The peer is the same. -/
  responder : t'.inner.responder.responder = t.inner.responder
  /-- Strangers send such datagrams only. -/
  noise : ∀ n i, ∀ d ∈ t'.inner.responder.noise n i, P d
  /-- What waits is strewn with them. -/
  queue : Strewn (Arrival.Stray P) t.inner.queue t'.inner.queue
  /-- So is what has been asked and answered. -/
  events : ∃ new new', t.events = old ++ new ∧ t'.events = old' ++ new'
    ∧ Strewn (NetEvent.Stray P) new new'

namespace Beside

variable {P : Bytes → Prop} {old old' : List NetEvent}

/-- One more event on both records. -/
theorem events_concat {events events' : List NetEvent}
    (h : ∃ new new', events = old ++ new ∧ events' = old' ++ new'
      ∧ Strewn (NetEvent.Stray P) new new') (e : NetEvent) :
    ∃ new new', events ++ [e] = old ++ new ∧ events' ++ [e] = old' ++ new'
      ∧ Strewn (NetEvent.Stray P) new new' := by
  obtain ⟨new, new', rfl, rfl, hnew⟩ := h
  exact ⟨_, _, List.append_assoc .., List.append_assoc .., hnew.concat e⟩

variable [Responder σ] {t : Traced (Exchange σ)}
  {t' : Traced (Exchange (Disturbed σ))}

/-- **Sending** has the same result among strangers. -/
theorem send (h : Beside P old old' t t') (peer : SocketAddr) (d : Bytes) :
    (Transport.send t peer d).1 = (Transport.send t' peer d).1
      ∧ Beside P old old' (Transport.send t peer d).2
        (Transport.send t' peer d).2 := by
  obtain ⟨⟨responder, queue⟩, events⟩ := t
  obtain ⟨⟨⟨responder', noise⟩, queue'⟩, events'⟩ := t'
  obtain ⟨rfl, hnoise, hqueue, hevents⟩ := h
  have harrivals := hqueue.append
    (strewn_disturb (hnoise 0) (Responder.react responder' peer d).1.arrivals)
  dsimp only [Transport.send, Exchange.send, Responder.react]
  cases (Responder.react responder' peer d).1.refusal with
  | none =>
    exact ⟨rfl, rfl, fun n => hnoise (n + 1), harrivals,
      events_concat hevents _⟩
  | some e =>
    exact ⟨rfl, rfl, fun n => hnoise (n + 1), harrivals,
      events_concat hevents _⟩

/-- **Closing** drops what strangers have sent, too. -/
theorem close (h : Beside P old old' t t') :
    Beside P old old' (Transport.close t) (Transport.close t') :=
  ⟨h.responder, h.noise, .nil, events_concat h.events _⟩

end Beside

end Disturbed

end NtpQuery
