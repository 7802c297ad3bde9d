import NtpQuery.Net.Script
import NtpQuery.Proofs.Net.Mail

/-!
# Scripts that repeat sequence numbers

A scripted peer makes the headers of its replies from the request, so it
repeats the sequence number of the request unless it is told to shift it
or to send bytes of its own. Scripts of which neither is asked are a type
of peers on their own, and these peers echo.
-/

namespace NtpQuery

/-- A fragment that arrives has the sequence number of its header. -/
theorem Arrival.sequence?_encode (f : Fragment) :
    (datagram f.encode).sequence? = some f.header.sequence := by
  unfold sequence? Fragment.encode
  dsimp only
  rw [Header.decode_encode]

/-- All fragments of a payload have the same sequence number. -/
theorem Fragment.sequence_of_mem_split {h : Header} {chunk start : Nat}
    {payload : Bytes} {f : Fragment}
    (hf : f ∈ split h chunk start payload) :
    f.header.sequence = h.sequence := by
  fun_induction split h chunk start payload with
  | case1 start payload _ =>
    rw [List.mem_singleton.mp hf]
    rfl
  | case2 start payload _ ih =>
    rcases List.mem_cons.mp hf with rfl | hf
    · rfl
    · exact ih hf

namespace Script

/-- **An event that repeats the sequence number** of the request, if it
brings a datagram. -/
def Event.Echoing : Event → Prop
  | response stamp _ _ => stamp.sequenceShift = 0
  | fragment stamp _ _ _ => stamp.sequenceShift = 0
  | raw _ => False
  | failure _ => True
  | refusal _ => True

/-- What a stamp makes of a fragment keeps its sequence number. -/
theorem Stamp.sequence?_datagram (s : Stamp) (f : Fragment) :
    (Arrival.datagram (s.datagram f)).sequence?
      = some f.header.sequence :=
  Arrival.sequence?_encode _

theorem Event.sequence_arrivals {request : Header} {e : Event}
    (he : e.Echoing) : ∀ x ∈ e.arrivals request, ∀ n ∈ x.sequence?,
      n = request.sequence := by
  intro x hx n hn
  have hshift : ∀ s : Stamp, s.sequenceShift = 0 →
      (s.header request).sequence = request.sequence := by
    intro s hs
    show request.sequence + s.sequenceShift = _
    rw [hs, UInt16.add_zero]
  cases e with
  | response s chunk data =>
    obtain ⟨f, hf, rfl⟩ := List.mem_map.mp hx
    rw [Stamp.sequence?_datagram] at hn
    rw [← Option.some.inj hn, Fragment.sequence_of_mem_split hf]
    exact hshift s he
  | fragment s offset more data =>
    rw [List.mem_singleton.mp hx, Stamp.sequence?_datagram] at hn
    rw [← Option.some.inj hn]
    exact hshift s he
  | raw d => exact he.elim
  | failure error =>
    rw [List.mem_singleton.mp hx] at hn
    exact absurd hn (by simp [Arrival.sequence?])
  | refusal error => exact absurd hx List.not_mem_nil

/-- What comes of events is what comes of each of them. -/
theorem exists_mem_of_mem_reaction {request : Header} {events : List Event}
    {x : Arrival} (hx : x ∈ (reaction request events).arrivals) :
    ∃ e ∈ events, x ∈ e.arrivals request := by
  induction events with
  | nil => exact absurd hx List.not_mem_nil
  | cons e events ih =>
    have hmore : x ∈ e.arrivals request
        ++ (reaction request events).arrivals →
        ∃ e' ∈ e :: events, x ∈ e'.arrivals request := by
      intro h
      cases List.mem_append.mp h with
      | inl h => exact ⟨e, List.mem_cons_self, h⟩
      | inr h =>
        obtain ⟨e', he', hx'⟩ := ih h
        exact ⟨e', List.mem_cons_of_mem _ he', hx'⟩
    cases e with
    | refusal error => exact absurd hx List.not_mem_nil
    | _ => exact hmore hx

/-- Taking a rule gives the events of one of the rules, and changes no
rule but in how often it was taken. -/
theorem Rule.take_spec (request : Header) (rules : List Rule) :
    ((Rule.take request rules).1 = []
        ∨ ∃ r ∈ rules, (Rule.take request rules).1 = r.reply)
      ∧ (Rule.take request rules).2.map (·.reply)
        = rules.map (·.reply) := by
  induction rules with
  | nil => exact ⟨Or.inl rfl, rfl⟩
  | cons r rest ih =>
    unfold Rule.take
    by_cases hfits : r.fits request = true
    · rw [if_pos hfits]
      exact ⟨Or.inr ⟨r, List.mem_cons_self, rfl⟩, rfl⟩
    · rw [if_neg hfits]
      refine ⟨ih.1.imp id ?_, congrArg (r.reply :: ·) ih.2⟩
      rintro ⟨r', hr', h⟩
      exact ⟨r', List.mem_cons_of_mem _ hr', h⟩

/-- **A script that repeats sequence numbers**: all its events do. -/
def Echoing (s : Script) : Prop :=
  ∀ events ∈ s.rules.map (·.reply), ∀ e ∈ events, e.Echoing

/-- Reacting leaves the events of a script as they are. -/
theorem Echoing.react {s : Script} (hs : s.Echoing) (peer : SocketAddr)
    (d : Bytes) : (Responder.react s peer d).2.Echoing := by
  unfold Echoing Responder.react
  dsimp only [instResponderScript]
  cases Header.decode d with
  | error e => exact hs
  | ok request =>
    dsimp only
    rw [(Rule.take_spec request s.rules).2]
    exact hs

instance : Responder { s : Script // s.Echoing } where
  react s peer d :=
    ((Responder.react s.1 peer d).1,
      ⟨(Responder.react s.1 peer d).2, s.2.react peer d⟩)

/-- **Scripts that repeat sequence numbers echo.** -/
theorem echoes : Responder.Echoes { s : Script // s.Echoing } := by
  rintro ⟨s, hs⟩ peer d request hd x hx
  have hreact : x ∈ (reaction request
      (Rule.take request s.rules).1).arrivals := by
    have h : x ∈ (Responder.react s peer d).1.arrivals := hx
    unfold Responder.react at h
    dsimp only [instResponderScript] at h
    rw [hd] at h
    exact h
  obtain ⟨e, he, hxe⟩ := exists_mem_of_mem_reaction hreact
  rcases (Rule.take_spec request s.rules).1 with hnil | ⟨r, hr, hreply⟩
  · rw [hnil] at he
    exact absurd he List.not_mem_nil
  · rw [hreply] at he
    exact Event.sequence_arrivals
      (hs _ (List.mem_map_of_mem hr) e he) x hxe

end Script

end NtpQuery
