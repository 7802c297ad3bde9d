import NtpQuery.Proofs.Command.Coercion
import NtpQuery.Proofs.Text.Numeral

/-!
# When reading arguments asks the server

An index such as `&3` stands for an entry of the list of associations, and
a list that is empty is read from the server before the index is looked
up. So reading the arguments of a command line can ask the server. It does
when it comes to an index while the list is empty (`Coercion.Consults`),
and only then. It does so once at most: after that the list has entries,
or the index fails and the words behind it are not read.
-/

namespace NtpQuery.Coercion

/-- **A word that is an index**: behind a `&` stands a decimal numeral that
fits 64 bits. -/
def IsIndex (raw : String) : Prop :=
  ∃ body n, raw.toList = '&' :: body ∧ Text.IsNumeral UInt64.size n body

variable {κ : Type} [Surroundings κ]

/-- **A word that needs the list of associations** while it is empty. -/
def Needs (kind : ArgumentKind) (raw : String) (k : κ) : Prop :=
  kind = .unsigned ∧ IsIndex raw ∧ Surroundings.listLength k = 0

/-- **Reading comes to a word** at a slot, in the surroundings that the
words before it have left. All of them could be read. -/
inductive Comes :
    List Slot → List String → κ → Slot → String → κ → Prop where
  /-- It starts with the first word. -/
  | here {slot : Slot} {slots : List Slot} {raw : String}
    {raws : List String} {k : κ} :
    Comes (slot :: slots) (raw :: raws) k slot raw k
  /-- It goes on behind a word that can be read. -/
  | there {first slot : Slot} {slots : List Slot} {word raw : String}
    {raws : List String} {k next k' : κ} {a : Argument} :
    coerce first.kind word k = (.ok a, next) →
    Comes slots raws next slot raw k' →
    Comes (first :: slots) (word :: raws) k slot raw k'

/-- Reading comes to no words but those that are given. -/
theorem Comes.mem {slots : List Slot} {raws : List String} {k k' : κ}
    {slot : Slot} {raw : String} (h : Comes slots raws k slot raw k') :
    raw ∈ raws := by
  induction h with
  | here => exact List.mem_cons_self
  | there _ _ ih => exact List.mem_cons_of_mem _ ih

/-- **Reading words asks the server**: it comes to a word that needs the
list of associations while it is empty. -/
def Consults (slots : List Slot) (raws : List String) (k : κ) : Prop :=
  ∃ slot raw k', Comes slots raws k slot raw k' ∧ Needs slot.kind raw k'

variable {raw : String} {k : κ}

/-- The words of an index are read as its number. -/
theorem association_of_numeral {body : List Char} {n : Nat}
    (h : Text.IsNumeral UInt64.size n body) :
    association raw body k =
      match select n (ensureAssociations k) with
      | .ok assid => (.ok (.unsigned assid.toUInt64), ensureAssociations k)
      | .error fault =>
        (.error (.unknownAssociation raw fault), ensureAssociations k) := by
  have hread := Text.readUnsigned?_eq_some_iff.mpr h
  cases hselect : select n (ensureAssociations k) with
  | ok assid => simp only [association, hread, hselect]
  | error fault => simp only [association, hread, hselect]

/-- What is not a numeral behind its `&` is no index. -/
theorem association_of_no_numeral {body : List Char}
    (h : ∀ n, ¬ Text.IsNumeral UInt64.size n body) :
    association raw body k
      = (.error (.unknownAssociation raw .unreadable), k) := by
  unfold association
  rw [Option.eq_none_iff_forall_ne_some.mpr fun n hn =>
    h n (Text.readUnsigned?_eq_some_iff.mp hn)]

/-- In an empty list nothing is selected. -/
theorem select_of_empty (index : Nat)
    (h : Surroundings.listLength k = 0) :
    select index k = .error .noAssociations := by
  unfold select
  dsimp only
  rw [if_pos h]

/-- A word at a slot for an unsigned number is an index if it starts with
`&`, and else it stands for itself. -/
theorem coerce_unsigned_cases (raw : String) (k : κ) :
    (∃ body, raw.toList = '&' :: body
        ∧ coerce .unsigned raw k = association raw body k)
      ∨ (raw.toList.head? ≠ some '&'
        ∧ coerce .unsigned raw k = (unsigned raw, k)) := by
  unfold coerce
  dsimp only
  split
  next body hraw => exact Or.inl ⟨body, hraw, rfl⟩
  next hraw =>
    refine Or.inr ⟨fun hhead => ?_, rfl⟩
    obtain ⟨body, hbody⟩ := List.head?_eq_some_iff.mp hhead
    exact hraw body hbody

/-- **The two ways of reading a word.** If it needs the list of
associations while it is empty, the list is read, and the word fails
unless there are entries then. Else the surroundings stay as they are. -/
theorem coerce_cases (kind : ArgumentKind) (raw : String) (k : κ) :
    (Needs kind raw k
        ∧ (coerce kind raw k).2 = Surroundings.refresh k
        ∧ ∀ a, (coerce kind raw k).1 = .ok a →
          Surroundings.listLength (Surroundings.refresh k) ≠ 0)
      ∨ (¬ Needs kind raw k ∧ (coerce kind raw k).2 = k) := by
  have hother : kind ≠ .unsigned → ¬ Needs kind raw k :=
    fun hkind h => hkind h.1
  cases kind with
  | text => exact Or.inr ⟨hother nofun, rfl⟩
  | address => exact Or.inr ⟨hother nofun, rfl⟩
  | signed => exact Or.inr ⟨hother nofun, rfl⟩
  | ipVersion => exact Or.inr ⟨hother nofun, rfl⟩
  | unsigned =>
    rcases coerce_unsigned_cases raw k with ⟨body, hraw, heq⟩ | ⟨hraw, heq⟩
    · rw [heq]
      by_cases hindex : ∃ n, Text.IsNumeral UInt64.size n body
      · obtain ⟨n, hn⟩ := hindex
        rw [association_of_numeral hn]
        unfold ensureAssociations
        by_cases hlength : Surroundings.listLength k = 0
        · rw [if_pos hlength]
          refine Or.inl ⟨⟨rfl, ⟨body, n, hraw, hn⟩, hlength⟩, ?_, ?_⟩
          · split <;> rfl
          · intro a ha hempty
            rw [select_of_empty n hempty] at ha
            exact nomatch ha
        · rw [if_neg hlength]
          refine Or.inr ⟨fun h => hlength h.2.2, ?_⟩
          split <;> rfl
      · rw [association_of_no_numeral (not_exists.mp hindex)]
        refine Or.inr ⟨?_, rfl⟩
        rintro ⟨-, ⟨body', n, hraw', hn⟩, -⟩
        rw [hraw] at hraw'
        exact hindex ⟨n, (List.cons.inj hraw').2 ▸ hn⟩
    · rw [heq]
      refine Or.inr ⟨?_, rfl⟩
      rintro ⟨-, ⟨body, n, hbody, -⟩, -⟩
      exact hraw (by rw [hbody]; rfl)

/-- A word does not ask the server while the list has entries. -/
theorem coerce_of_listed (kind : ArgumentKind) (raw : String)
    (h : Surroundings.listLength k ≠ 0) : (coerce kind raw k).2 = k := by
  rcases coerce_cases kind raw k with ⟨hneeds, -⟩ | ⟨-, heq⟩
  · exact absurd hneeds.2.2 h
  · exact heq

section Words

variable {slot : Slot} {slots : List Slot} {raws : List String}

/-- Reading comes to its first word, and to those behind it if the first
can be read. -/
theorem consults_cons_iff :
    Consults (slot :: slots) (raw :: raws) k ↔ Needs slot.kind raw k
      ∨ ∃ a next, coerce slot.kind raw k = (.ok a, next)
        ∧ Consults slots raws next := by
  constructor
  · rintro ⟨slot', raw', k', hcomes, hneeds⟩
    cases hcomes with
    | here => exact Or.inl hneeds
    | there hfirst hrest =>
      exact Or.inr ⟨_, _, hfirst, slot', raw', k', hrest, hneeds⟩
  · rintro (hneeds | ⟨a, next, hfirst, slot', raw', k', hrest, hneeds⟩)
    · exact ⟨slot, raw, k, .here, hneeds⟩
    · exact ⟨slot', raw', k', .there hfirst hrest, hneeds⟩

theorem not_consults_nil_left : ¬ Consults [] raws k := by
  rintro ⟨slot, raw, k', hcomes, -⟩
  cases hcomes

theorem not_consults_nil_right : ¬ Consults slots [] k := by
  rintro ⟨slot, raw, k', hcomes, -⟩
  cases hcomes

/-- Reading words does not ask the server while the list has entries. -/
theorem not_consults_of_listed (h : Surroundings.listLength k ≠ 0) :
    ¬ Consults slots raws k := by
  rintro ⟨slot, raw, k', hcomes, hneeds⟩
  induction hcomes with
  | here => exact h hneeds.2.2
  | there hfirst _ ih =>
    obtain rfl := (congrArg Prod.snd hfirst).symm.trans
      (coerce_of_listed _ _ h)
    exact ih h hneeds

/-- The words behind the first are read in what it leaves. -/
theorem coerceAll_cons (keyword : String) (slot : Slot) (slots : List Slot)
    (raw : String) (raws : List String) (k : κ) :
    (coerceAll keyword (slot :: slots) (raw :: raws) k).2
      = match coerce slot.kind raw k with
        | (.error _, next) => next
        | (.ok _, next) => (coerceAll keyword slots raws next).2 := by
  rw [coerceAll]
  rcases coerce slot.kind raw k with ⟨_ | a, next⟩
  · rfl
  · dsimp only
    rcases coerceAll keyword slots raws next with ⟨_ | rest, last⟩ <;> rfl

/-- **Reading words asks the server once at most**, and does exactly if it
comes to a word that needs an empty list. -/
theorem coerceAll_consults (keyword : String) (slots : List Slot)
    (raws : List String) (k : κ) :
    (Consults slots raws k
        ∧ (coerceAll keyword slots raws k).2 = Surroundings.refresh k)
      ∨ (¬ Consults slots raws k
        ∧ (coerceAll keyword slots raws k).2 = k) := by
  induction slots generalizing raws k with
  | nil => exact Or.inr ⟨not_consults_nil_left, rfl⟩
  | cons slot slots ih =>
    cases raws with
    | nil => exact Or.inr ⟨not_consults_nil_right, rfl⟩
    | cons raw raws =>
      rw [consults_cons_iff, coerceAll_cons]
      rcases coerce_cases slot.kind raw k with
        ⟨hneeds, hnext, hlisted⟩ | ⟨hneeds, hnext⟩
      · -- the first word has asked, so those behind it find entries
        refine Or.inl ⟨Or.inl hneeds, ?_⟩
        rcases hfirst : coerce slot.kind raw k with ⟨_ | a, next⟩
        · exact (congrArg Prod.snd hfirst).symm.trans hnext
        · obtain rfl := (congrArg Prod.snd hfirst).symm.trans hnext
          have hentries := hlisted a (congrArg Prod.fst hfirst)
          rcases ih raws (Surroundings.refresh k) with
            ⟨hrest, -⟩ | ⟨-, hrest⟩
          · exact absurd hrest (not_consults_of_listed hentries)
          · exact hrest
      · rcases hfirst : coerce slot.kind raw k with ⟨e | a, next⟩
        · refine Or.inr ⟨?_, (congrArg Prod.snd hfirst).symm.trans hnext⟩
          rintro (hfirst' | ⟨a, next', hok, -⟩)
          · exact hneeds hfirst'
          · exact nomatch hok
        · obtain rfl := (congrArg Prod.snd hfirst).symm.trans hnext
          refine (ih raws next).imp ?_ ?_
          · exact fun h => ⟨Or.inr ⟨a, next, rfl, h.1⟩, h.2⟩
          · rintro ⟨hrest, heq⟩
            refine ⟨?_, heq⟩
            rintro (hfirst' | ⟨b, next', hok, hrest'⟩)
            · exact hneeds hfirst'
            · obtain rfl : next = next' := congrArg Prod.snd hok
              exact hrest hrest'

/-- **So does reading the arguments of a command line**, of which the first
four are read. -/
theorem invocation_consults (keyword : String) (slots : List Slot)
    (raws : List String) (k : κ) :
    (Consults (slots.take maxSlots) raws k
        ∧ (invocation keyword slots raws k).2 = Surroundings.refresh k)
      ∨ (¬ Consults (slots.take maxSlots) raws k
        ∧ (invocation keyword slots raws k).2 = k) := by
  have hsame : (invocation keyword slots raws k).2
      = (coerceAll keyword (slots.take maxSlots) raws k).2 := by
    unfold invocation
    rcases coerceAll keyword (slots.take maxSlots) raws k with
      ⟨_ | arguments, last⟩ <;> rfl
  rw [hsame]
  exact coerceAll_consults keyword (slots.take maxSlots) raws k

/-- **Words that can be read** leave the surroundings as they are, or have
filled the list of associations, which was empty. -/
theorem coerceAll_ok {keyword : String} {arguments : List Argument}
    {next : κ}
    (h : coerceAll keyword slots raws k = (.ok arguments, next)) :
    next = k ∨ next = Surroundings.refresh k
      ∧ Surroundings.listLength k = 0 ∧ Surroundings.listLength next ≠ 0 := by
  induction slots generalizing raws k arguments with
  | nil => exact Or.inl (congrArg Prod.snd h).symm
  | cons slot slots ih =>
    cases raws with
    | nil => exact Or.inl (congrArg Prod.snd h).symm
    | cons raw raws =>
      rw [coerceAll] at h
      rcases hfirst : coerce slot.kind raw k with ⟨e | a, between⟩
      · rw [hfirst] at h
        exact nomatch (congrArg Prod.fst h)
      · rw [hfirst] at h
        dsimp only at h
        rcases hrest : coerceAll keyword slots raws between with
          ⟨e | rest, last⟩
        · rw [hrest] at h
          exact nomatch (congrArg Prod.fst h)
        · rw [hrest] at h
          obtain rfl : last = next := congrArg Prod.snd h
          have hbetween := (congrArg Prod.snd hfirst).symm
          rcases coerce_cases slot.kind raw k with
            ⟨hneeds, hasked, hlisted⟩ | ⟨-, hsame⟩
          · obtain rfl := hbetween.trans hasked
            have hentries := hlisted a (congrArg Prod.fst hfirst)
            obtain rfl | ⟨-, hnone, -⟩ := ih hrest
            · exact Or.inr ⟨rfl, hneeds.2.2, hentries⟩
            · exact absurd hnone hentries
          · obtain rfl := hbetween.trans hsame
            exact ih hrest

/-- So do the arguments of a command line. -/
theorem invocation_ok {keyword : String} {i : Invocation} {next : κ}
    (h : invocation keyword slots raws k = (.ok i, next)) :
    next = k ∨ next = Surroundings.refresh k
      ∧ Surroundings.listLength k = 0 ∧ Surroundings.listLength next ≠ 0 := by
  unfold invocation at h
  rcases hread : coerceAll keyword (slots.take maxSlots) raws k with
    ⟨e | arguments, last⟩
  · rw [hread] at h
    exact nomatch (congrArg Prod.fst h)
  · rw [hread] at h
    obtain rfl : last = next := congrArg Prod.snd h
    exact coerceAll_ok hread

/-- **Without an index** among the words, the server is not asked. -/
theorem invocation_of_plain {keyword : String} {slots : List Slot}
    {raws : List String} (h : ∀ raw ∈ raws, raw.toList.head? ≠ some '&') :
    (invocation keyword slots raws k).2 = k := by
  rcases invocation_consults keyword slots raws k with
    ⟨⟨slot, raw, k', hcomes, -, ⟨body, n, hbody, -⟩, -⟩, -⟩ | ⟨-, heq⟩
  · exact absurd (by rw [hbody]; rfl) (h raw hcomes.mem)
  · exact heq

end Words

section Alike

variable {κ' : Type} [Surroundings κ'] {R : κ → κ' → Prop}

/-- Reading comes to the same words in surroundings that look alike. -/
theorem Comes.alike (hR : Surroundings.Alike R) {slots : List Slot}
    {raws : List String} {k m : κ} {slot : Slot} {raw : String}
    (h : Comes slots raws k slot raw m) {k' : κ'} (hk : R k k') :
    ∃ m', Comes slots raws k' slot raw m' ∧ R m m' := by
  induction h generalizing k' with
  | here => exact ⟨k', .here, hk⟩
  | there hfirst _ ih =>
    obtain ⟨heq, hnext⟩ := coerce_alike hR hk _ _
    rw [hfirst] at heq hnext
    obtain ⟨m', hrest, hm⟩ := ih hnext
    exact ⟨m', .there (Prod.ext heq.symm rfl) hrest, hm⟩

/-- It asks the server in both or in neither. -/
theorem consults_alike (hR : Surroundings.Alike R) {slots : List Slot}
    {raws : List String} {k : κ} {k' : κ'} (hk : R k k') :
    Consults slots raws k ↔ Consults slots raws k' := by
  constructor
  · rintro ⟨slot, raw, m, hcomes, hkind, hindex, hlength⟩
    obtain ⟨m', hcomes', hm⟩ := hcomes.alike hR hk
    exact ⟨slot, raw, m', hcomes', hkind, hindex, hR.listLength hm ▸ hlength⟩
  · rintro ⟨slot, raw, m', hcomes', hkind, hindex, hlength⟩
    obtain ⟨m, hcomes, hm⟩ := hcomes'.alike hR.symm hk
    exact ⟨slot, raw, m, hcomes, hkind, hindex, hR.listLength hm ▸ hlength⟩

end Alike

/-- **Keeping account of it**: the surroundings are noted once if reading
the arguments asks the server, and else not at all. The arguments are the
same whether account is kept or not. -/
theorem invocation_noted (keyword : String) (slots : List Slot)
    (raws : List String) (k : κ) :
    let read := invocation keyword slots raws (Noted.mk k [])
    (invocation keyword slots raws k).1 = read.1
      ∧ (invocation keyword slots raws k).2 = read.2.now
      ∧ ((Consults (slots.take maxSlots) raws k
          ∧ read.2 = ⟨Surroundings.refresh k, [k]⟩)
        ∨ (¬ Consults (slots.take maxSlots) raws k ∧ read.2 = ⟨k, []⟩)) := by
  have halike := Noted.alike (I := fun _ : Noted κ => True) fun _ _ => trivial
  have hstart : (Noted.mk k []).now = k ∧ True := ⟨rfl, trivial⟩
  obtain ⟨hresult, hnow, -⟩ :=
    invocation_alike halike hstart keyword slots raws
  refine ⟨hresult, hnow.symm, ?_⟩
  rw [consults_alike halike hstart]
  exact invocation_consults keyword slots raws (Noted.mk k [])

end NtpQuery.Coercion
