import NtpQuery.Command.Standard
import NtpQuery.Proofs.Command.Coercion

/-!
# Arguments by their positions

A word of a command line counts by where it stands. `Coercion.resultAt` is
what the word at a position is read as, in the surroundings that the words
before it leave, whatever became of those. Reading a command line goes
wrong as its first failing word does (`Coercion.coerceAll_of_error`); if no
word fails, it gives what its words are read as, unless the next slot has
to be given (`Coercion.coerceAll_of_ok`).

Handlers ask for arguments by position and kind, and take a default for
what is not there. So it matters that what they ask for is there whenever
it was given: slots that must be given stand before those that need not,
and an argument is of the kind that its slot takes.
-/

namespace NtpQuery

/-- **Slots in order**: there are not too many, and those that must be
given come first. -/
structure Orderly (slots : List Slot) : Prop where
  /-- All of them are read. -/
  length_le : slots.length ≤ maxSlots
  /-- What need not be given is followed by nothing that must be. -/
  required : slots.Pairwise fun s t => t.required = true → s.required = true

instance : DecidablePred Orderly := fun slots =>
  have : DecidableRel fun s t : Slot =>
      t.required = true → s.required = true := fun s t =>
    @forall_prop_decidable _ _ (instDecidableEqBool t.required true)
      fun _ => instDecidableEqBool s.required true
  decidable_of_iff (slots.length ≤ maxSlots
      ∧ slots.Pairwise fun s t => t.required = true → s.required = true)
    ⟨fun h => ⟨h.1, h.2⟩, fun h => ⟨h.length_le, h.required⟩⟩

/-- Whatever stands before a slot that must be given must be given. -/
theorem Orderly.required_of_le {slots : List Slot} (h : Orderly slots)
    {p q : Nat} {s t : Slot} (hs : slots[p]? = some s)
    (ht : slots[q]? = some t) (hle : p ≤ q) (hreq : t.required = true) :
    s.required = true := by
  rcases Nat.lt_or_eq_of_le hle with hlt | rfl
  · obtain ⟨hp, rfl⟩ := List.getElem?_eq_some_iff.mp hs
    obtain ⟨hq, rfl⟩ := List.getElem?_eq_some_iff.mp ht
    exact List.pairwise_iff_getElem.mp h.required p q hp hq hlt hreq
  · rw [hs] at ht
    exact Option.some.inj ht ▸ hreq

/-- **Whether asking for an argument finds it**, by its kind and where it
stands. -/
def Invocation.has (i : Invocation) (position : Nat) :
    ArgumentKind → Bool
  | .text => (i.text? position).isSome
  | .address => i.arguments[position]?.any (·.kind == .address)
  | .unsigned => (i.unsigned? position).isSome
  | .signed => (i.signed? position).isSome
  | .ipVersion => (i.ipVersion? position).isSome

/-- An argument is found by its own kind. -/
theorem Invocation.has_kind {i : Invocation} {position : Nat}
    {a : Argument} (h : i.arguments[position]? = some a) :
    i.has position a.kind = true := by
  cases a with
  | text value => simp [has, text?, Argument.kind, h]
  | address value => simp [has, Argument.kind, h]
  | unsigned value => simp [has, unsigned?, Argument.kind, h]
  | signed value => simp [has, signed?, Argument.kind, h]
  | ipVersion value => simp [has, ipVersion?, Argument.kind, h]

namespace Coercion

variable {κ : Type} [Surroundings κ]

/-- What reading words, one after the other, leaves of the surroundings. -/
def leave (words : List (Slot × String)) (k : κ) : κ :=
  words.foldl (fun k word => (coerce word.1.kind word.2 k).2) k

/-- **What the word at a position is read as**, in the surroundings that
the words before it leave. -/
def resultAt (words : List (Slot × String)) (k : κ) (position : Nat) :
    Option (Except Failure Argument) :=
  words[position]?.map fun word =>
    (coerce word.1.kind word.2 (leave (words.take position) k)).1

/-- The words that are read, each with its slot. -/
def supplied (slots : List Slot) (raws : List String) :
    List (Slot × String) :=
  (slots.take maxSlots).zip raws

variable {keyword : String} {slots : List Slot} {raws : List String} {k : κ}

/-- The first word is read as if it were the only one. -/
theorem resultAt_zero (word : Slot × String)
    (words : List (Slot × String)) (k : κ) :
    resultAt (word :: words) k 0
      = some (coerce word.1.kind word.2 k).1 := rfl

/-- **The first word that fails** decides. -/
theorem coerceAll_of_error {p : Nat} {e : Failure}
    (h : resultAt (slots.zip raws) k p = some (.error e))
    (hfirst : ∀ q < p, ∀ f,
      resultAt (slots.zip raws) k q ≠ some (.error f)) :
    coerceAll keyword slots raws k
      = (.error e, leave ((slots.zip raws).take (p + 1)) k) := by
  induction slots generalizing raws k p with
  | nil => exact nomatch h
  | cons slot slots ih =>
    cases raws with
    | nil => exact nomatch h
    | cons raw raws =>
      rw [coerceAll]
      rcases hread : coerce slot.kind raw k with ⟨f | a, next⟩
      all_goals obtain rfl : (coerce slot.kind raw k).2 = next :=
        congrArg Prod.snd hread
      · have hzero : resultAt ((slot :: slots).zip (raw :: raws)) k 0
            = some (.error f) := congrArg some (congrArg Prod.fst hread)
        cases p with
        | zero =>
          obtain rfl : f = e :=
            Except.error.inj (Option.some.inj (hzero.symm.trans h))
          rfl
        | succ p => exact absurd hzero (hfirst 0 (Nat.succ_pos p) f)
      · cases p with
        | zero =>
          have hok : (coerce slot.kind raw k).1 = .error e :=
            Option.some.inj h
          exact nomatch (congrArg Prod.fst hread).symm.trans hok
        | succ p =>
          have hrest := ih h fun q hq => hfirst (q + 1) (Nat.succ_lt_succ hq)
          dsimp only
          rw [hrest]
          rfl

/-- **If no word fails**, all are read. What remains is whether the next
slot, if there is one, must be given. -/
theorem coerceAll_of_ok
    (h : ∀ q f, resultAt (slots.zip raws) k q ≠ some (.error f)) :
    ∃ arguments : List Argument,
      (∀ q, arguments[q]?.map .ok = resultAt (slots.zip raws) k q)
        ∧ coerceAll keyword slots raws k
          = (if slots[raws.length]?.any (·.required) then
              .error (.tooFewArguments keyword) else .ok arguments,
            leave (slots.zip raws) k) := by
  induction slots generalizing raws k with
  | nil => exact ⟨[], fun _ => rfl, rfl⟩
  | cons slot slots ih =>
    cases raws with
    | nil => exact ⟨[], fun _ => rfl, rfl⟩
    | cons raw raws =>
      rw [coerceAll]
      rcases hread : coerce slot.kind raw k with ⟨f | a, next⟩
      · exact absurd (congrArg some (congrArg Prod.fst hread)) (h 0 f)
      · obtain rfl : (coerce slot.kind raw k).2 = next :=
          congrArg Prod.snd hread
        have hnone : ∀ q f, resultAt (slots.zip raws)
            (coerce slot.kind raw k).2 q ≠ some (.error f) :=
          fun q => h (q + 1)
        obtain ⟨rest, hvalues, hrest⟩ := ih hnone
        refine ⟨a :: rest, fun q => ?_, ?_⟩
        · cases q with
          | zero => exact (congrArg some (congrArg Prod.fst hread)).symm
          | succ q => exact hvalues q
        · dsimp only
          rw [hrest]
          by_cases hnext : slots[raws.length]?.any (·.required) = true
          · rw [if_pos hnext, List.length_cons, List.getElem?_cons_succ,
              if_pos hnext]
            rfl
          · rw [if_neg hnext, List.length_cons, List.getElem?_cons_succ,
              if_neg hnext]
            rfl

/-- **Some word is the first to fail, or none fails.** -/
theorem first_error_or_none (words : List (Slot × String)) (k : κ) :
    (∃ p e, resultAt words k p = some (.error e)
        ∧ ∀ q < p, ∀ f, resultAt words k q ≠ some (.error f))
      ∨ ∀ q f, resultAt words k q ≠ some (.error f) := by
  induction words generalizing k with
  | nil => exact Or.inr fun q f h => nomatch h
  | cons word words ih =>
    have hzero := resultAt_zero word words k
    cases hread : (coerce word.1.kind word.2 k).1 with
    | error e =>
      rw [hread] at hzero
      exact Or.inl ⟨0, e, hzero, fun q hq => absurd hq (Nat.not_lt_zero q)⟩
    | ok a =>
      have hok : ∀ f, resultAt (word :: words) k 0 ≠ some (.error f) := by
        intro f hf
        rw [hzero, hread] at hf
        exact nomatch hf
      refine (ih (coerce word.1.kind word.2 k).2).imp ?_ ?_
      · rintro ⟨p, e, hfail, hfirst⟩
        refine ⟨p + 1, e, hfail, fun q hq => ?_⟩
        cases q with
        | zero => exact hok
        | succ q => exact hfirst q (Nat.lt_of_succ_lt_succ hq)
      · intro hnone q
        cases q with
        | zero => exact hok
        | succ q => exact hnone q

/-- Words behind the last slot make no difference. -/
theorem coerceAll_take (keyword : String) (slots : List Slot)
    (raws : List String) (k : κ) :
    coerceAll keyword slots (raws.take slots.length) k
      = coerceAll keyword slots raws k := by
  induction slots generalizing raws k with
  | nil => rfl
  | cons slot slots ih =>
    cases raws with
    | nil => rfl
    | cons raw raws =>
      rw [List.length_cons, List.take_succ_cons, coerceAll, coerceAll]
      rcases coerce slot.kind raw k with ⟨e | a, next⟩
      · rfl
      · dsimp only
        rw [ih]

/-- **The first words decide**, as many as there are slots but four at
most. -/
theorem invocation_congr {raws' : List String}
    (h : raws.take (min maxSlots slots.length)
      = raws'.take (min maxSlots slots.length)) :
    invocation keyword slots raws k = invocation keyword slots raws' k := by
  have hsame : coerceAll keyword (slots.take maxSlots) raws k
      = coerceAll keyword (slots.take maxSlots) raws' k := by
    rw [← coerceAll_take, ← coerceAll_take keyword _ raws', List.length_take,
      h]
  unfold invocation
  rw [hsame]

/-- A command line goes wrong as its first failing word does. -/
theorem invocation_of_error {p : Nat} {e : Failure}
    (h : resultAt (supplied slots raws) k p = some (.error e))
    (hfirst : ∀ q < p, ∀ f,
      resultAt (supplied slots raws) k q ≠ some (.error f)) :
    invocation keyword slots raws k
      = (.error e, leave ((supplied slots raws).take (p + 1)) k) := by
  unfold invocation
  rw [coerceAll_of_error h hfirst]
  rfl

/-- A command line of which no word fails is read, if what must be given
is. -/
theorem invocation_of_ok
    (h : ∀ q f, resultAt (supplied slots raws) k q ≠ some (.error f)) :
    ∃ arguments : List Argument,
      (∀ q, arguments[q]?.map .ok = resultAt (supplied slots raws) k q)
        ∧ invocation keyword slots raws k
          = (if (slots.take maxSlots)[raws.length]?.any (·.required) then
              .error (.tooFewArguments keyword)
            else .ok ⟨keyword, arguments⟩,
            leave (supplied slots raws) k) := by
  obtain ⟨arguments, hvalues, hread⟩ :=
    @coerceAll_of_ok _ _ keyword _ _ _ h
  refine ⟨arguments, hvalues, ?_⟩
  unfold invocation
  rw [hread]
  by_cases hnext : (slots.take maxSlots)[raws.length]?.any (·.required) = true
  · rw [if_pos hnext, if_pos hnext]
    rfl
  · rw [if_neg hnext, if_neg hnext]
    rfl

section Typed

variable {i : Invocation} {k' : κ}

/-- **An invocation holds what its words are read as**, and no slot behind
them must be given. -/
theorem resultAt_of_invocation
    (h : invocation keyword slots raws k = (.ok i, k')) :
    (∀ q, i.arguments[q]?.map .ok = resultAt (supplied slots raws) k q)
      ∧ (slots.take maxSlots)[raws.length]?.any (·.required) = false := by
  rcases first_error_or_none (supplied slots raws) k with
    ⟨p, e, hfail, hfirst⟩ | hnone
  · rw [invocation_of_error hfail hfirst] at h
    exact nomatch (congrArg Prod.fst h)
  · obtain ⟨arguments, hvalues, hread⟩ :=
      @invocation_of_ok _ _ keyword _ _ _ hnone
    have hresult := congrArg Prod.fst (hread.symm.trans h)
    dsimp only at hresult
    split at hresult
    · exact nomatch hresult
    next hnext =>
      obtain rfl := Except.ok.inj hresult
      exact ⟨hvalues, eq_false_of_ne_true hnext⟩

/-- **A value is of the kind of its slot.** -/
theorem kind_of_invocation
    (h : invocation keyword slots raws k = (.ok i, k')) {p : Nat}
    {a : Argument} (ha : i.arguments[p]? = some a) :
    ∃ slot, slots[p]? = some slot ∧ a.kind = slot.kind := by
  have hread := (resultAt_of_invocation h).1 p
  rw [ha] at hread
  obtain ⟨⟨slot, raw⟩, hword, hok⟩ := Option.map_eq_some_iff.mp hread.symm
  obtain ⟨hslot, -⟩ := List.getElem?_zip_eq_some.mp hword
  rw [List.getElem?_take] at hslot
  split at hslot
  · exact ⟨slot, hslot, kind_of_coerce hok⟩
  · exact nomatch hslot

/-- **What is given is there**, if its position is read at all. -/
theorem exists_of_supplied (horder : Orderly slots)
    (h : invocation keyword slots raws k = (.ok i, k')) {p : Nat}
    {slot : Slot} {raw : String} (hslot : slots[p]? = some slot)
    (hraw : raws[p]? = some raw) : ∃ a, i.arguments[p]? = some a := by
  have hread := (resultAt_of_invocation h).1 p
  have hword : (supplied slots raws)[p]? = some (slot, raw) := by
    unfold supplied
    rw [List.take_of_length_le horder.length_le]
    exact List.getElem?_zip_eq_some.mpr ⟨hslot, hraw⟩
  unfold resultAt at hread
  rw [hword] at hread
  obtain ⟨a, ha, -⟩ := Option.map_eq_some_iff.mp hread
  exact ⟨a, ha⟩

/-- **What must be given is there.** -/
theorem exists_of_required (horder : Orderly slots)
    (h : invocation keyword slots raws k = (.ok i, k')) {p : Nat}
    {slot : Slot} (hslot : slots[p]? = some slot)
    (hreq : slot.required = true) : ∃ a, i.arguments[p]? = some a := by
  cases hraw : raws[p]? with
  | some raw => exact exists_of_supplied horder h hslot hraw
  | none =>
    -- the first slot without a word must be given too
    have hend : raws.length ≤ p := List.getElem?_eq_none_iff.mp hraw
    have hlt : raws.length < slots.length :=
      Nat.lt_of_le_of_lt hend (List.getElem?_eq_some_iff.mp hslot).1
    have hnext := List.getElem?_eq_getElem hlt
    have hmissing := (resultAt_of_invocation h).2
    rw [List.take_of_length_le horder.length_le, hnext, Option.any_some,
      horder.required_of_le hnext hslot hend hreq] at hmissing
    exact nomatch hmissing

/-- **Asking finds what was given**: an argument that is not found by the
kind of its slot was not given. -/
theorem raw_of_not_has (horder : Orderly slots)
    (h : invocation keyword slots raws k = (.ok i, k')) {p : Nat}
    {slot : Slot} (hslot : slots[p]? = some slot)
    (hhas : i.has p slot.kind = false) : raws[p]? = none := by
  cases hraw : raws[p]? with
  | none => rfl
  | some raw =>
    obtain ⟨a, ha⟩ := exists_of_supplied horder h hslot hraw
    obtain ⟨slot', hslot', hkind⟩ := kind_of_invocation h ha
    obtain rfl : slot = slot' := Option.some.inj (hslot.symm.trans hslot')
    rw [← hkind, Invocation.has_kind ha] at hhas
    exact nomatch hhas

end Typed

/-- The slots of all commands are in order. -/
theorem orderly_standard : ∀ c ∈ Standard.tables.commands, Orderly c.slots := by
  decide

/-- **Arguments are read by their positions.** Only the words for the slots
count, and for four slots at most: with the same words there, the result
and what becomes of the surroundings are the same. Words are read from left
to right, each in what those before it leave. The first that fails decides.
If none fails, the next slot decides whether too few were given; else the
invocation holds what the words were read as.

With slots in order, all that must be given is in the invocation, every
argument is of the kind of its slot, and who asks for an argument by that
kind misses nothing that was given. The slots of all commands are in
order. -/
theorem invocation_by_position (keyword : String) (slots : List Slot)
    (k : κ) :
    (∀ raws raws' : List String,
        raws.take (min maxSlots slots.length)
          = raws'.take (min maxSlots slots.length) →
        invocation keyword slots raws k = invocation keyword slots raws' k)
      ∧ (∀ (raws : List String) (p : Nat) (e : Failure),
        resultAt (supplied slots raws) k p = some (.error e) →
        (∀ q < p, ∀ f,
          resultAt (supplied slots raws) k q ≠ some (.error f)) →
        invocation keyword slots raws k
          = (.error e, leave ((supplied slots raws).take (p + 1)) k))
      ∧ (∀ raws : List String,
        (∀ q f, resultAt (supplied slots raws) k q ≠ some (.error f)) →
        ∃ arguments : List Argument,
          (∀ q, arguments[q]?.map .ok
            = resultAt (supplied slots raws) k q)
          ∧ invocation keyword slots raws k
            = (if (slots.take maxSlots)[raws.length]?.any (·.required) then
                .error (.tooFewArguments keyword)
              else .ok ⟨keyword, arguments⟩,
              leave (supplied slots raws) k))
      ∧ (Orderly slots → ∀ (raws : List String) (i : Invocation) (k' : κ),
        invocation keyword slots raws k = (.ok i, k') →
        (∀ (p : Nat) (slot : Slot), slots[p]? = some slot →
          slot.required = true → ∃ a, i.arguments[p]? = some a)
        ∧ (∀ (p : Nat) (a : Argument), i.arguments[p]? = some a →
          ∃ slot : Slot, slots[p]? = some slot ∧ a.kind = slot.kind)
        ∧ ∀ (p : Nat) (slot : Slot), slots[p]? = some slot →
          i.has p slot.kind = false → raws[p]? = none)
      ∧ ∀ c ∈ Standard.tables.commands, Orderly c.slots :=
  ⟨fun _ _ h => invocation_congr h,
    fun _ _ _ h hfirst => invocation_of_error h hfirst,
    fun _ h => invocation_of_ok h,
    fun horder _ _ _ h =>
      ⟨fun _ _ hslot hreq => exists_of_required horder h hslot hreq,
        fun _ _ ha => kind_of_invocation h ha,
        fun _ _ hslot hhas => raw_of_not_has horder h hslot hhas⟩,
    orderly_standard⟩

/-- **Surroundings with a list at hand**, and the list that reading it anew
would give. -/
structure Shelf where
  /-- The list of associations. -/
  list : List UInt16
  /-- The list that the server has. -/
  sent : List UInt16

instance : Surroundings Shelf where
  world _ := ⟨0, fun _ => [], .unlimited, fun _ => true⟩
  family _ := .any
  port _ := 123
  listLength k := k.list.length
  listEntry? k i := k.list[i]?
  refresh k := ⟨k.sent, k.sent⟩

/-- An index that has the list read before the words behind it, with a word
too many, with one that cannot be read, and with too few. -/
theorem invocation_by_position_index :
    let slots : List Slot :=
      [⟨.unsigned, true⟩, ⟨.text, true⟩, ⟨.ipVersion, false⟩]
    let k : Shelf := ⟨[], [7, 9]⟩
    let i : Invocation :=
      ⟨"rv", [.unsigned 9, .text "stratum", .ipVersion .v4]⟩
    invocation "rv" slots ["&2", "stratum", "-4", "-6"] k
        = (.ok i, ⟨[7, 9], [7, 9]⟩)
      ∧ i.has 1 .text = true
      ∧ invocation "rv" slots ["&2", "stratum", "-5"] k
        = (.error (.invalidIpVersion "-5"), ⟨[7, 9], [7, 9]⟩)
      ∧ invocation "rv" slots ["&2"] k
        = (.error (.tooFewArguments "rv"), ⟨[7, 9], [7, 9]⟩) := by
  intro slots k i
  obtain ⟨hcongr, hfail, hread, htyped, -⟩ :=
    invocation_by_position "rv" slots k
  have hok : invocation "rv" slots ["&2", "stratum", "-4", "-6"] k
      = (.ok i, ⟨[7, 9], [7, 9]⟩) :=
    (hcongr _ ["&2", "stratum", "-4"] rfl).trans rfl
  obtain ⟨-, -, hhas⟩ := htyped (by decide) _ _ _ hok
  refine ⟨hok, ?_, ?_, ?_⟩
  · refine eq_true_of_ne_false fun h => ?_
    exact nomatch hhas 1 ⟨.text, true⟩ rfl h
  · refine hfail _ 2 _ rfl fun q hq f => ?_
    match q with
    | 0 => exact nofun
    | 1 => exact nofun
  · obtain ⟨arguments, -, h⟩ := hread ["&2"] fun q f => by
      match q with
      | 0 => exact nofun
      | q + 1 => exact nofun
    exact h

end Coercion

end NtpQuery
