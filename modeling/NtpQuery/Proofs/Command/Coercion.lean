import NtpQuery.Command.Coercion
import NtpQuery.Proofs.Program

/-!
# Reading arguments in different surroundings

Reading the arguments of a command line sees its surroundings only
through the class `Surroundings`. So surroundings that look alike, and
still do after the list of associations has been read anew in both, give
the same arguments (`Coercion.invocation_alike`).

One use of this is to keep account of what reading arguments does:
`Noted` surroundings remember the states in which they were asked to
read the list of associations anew.
-/

namespace NtpQuery

/-- **A failure to read a word**, which quotes the word. -/
def Failure.OfWord (raw : String) : Failure → Prop
  | invalidAddress value | unknownAssociation value _ | invalidUnsigned value
  | invalidSigned value | invalidIpVersion value => value = raw
  | alreadyOpen | notOpen | outOfMemory _ | missingArguments
  | unknownCommand _ | tooFewArguments _ | busy | commandFailed _ _ => False

/-- **Surroundings that look alike** whenever they are related. -/
structure Surroundings.Alike {κ κ' : Type} [Surroundings κ]
    [Surroundings κ'] (R : κ → κ' → Prop) : Prop where
  /-- Hosts have the same addresses in them. -/
  resolve : ∀ {k k'}, R k k' → ∀ family name,
    (Surroundings.world k).resolve family name
      = (Surroundings.world k').resolve family name
  /-- They look hosts up in the same family. -/
  family : ∀ {k k'}, R k k' →
    Surroundings.family k = Surroundings.family k'
  /-- They have the same port. -/
  port : ∀ {k k'}, R k k' → Surroundings.port k = Surroundings.port k'
  /-- Their lists of associations have the same length. -/
  listLength : ∀ {k k'}, R k k' →
    Surroundings.listLength k = Surroundings.listLength k'
  /-- Their lists of associations have the same entries. -/
  listEntry? : ∀ {k k'}, R k k' → ∀ i,
    Surroundings.listEntry? k i = Surroundings.listEntry? k' i
  /-- They look alike after the list has been read anew. -/
  refresh : ∀ {k k'}, R k k' →
    R (Surroundings.refresh k) (Surroundings.refresh k')

/-- It does not matter which of the two comes first. -/
theorem Surroundings.Alike.symm {κ κ' : Type} [Surroundings κ]
    [Surroundings κ'] {R : κ → κ' → Prop} (hR : Surroundings.Alike R) :
    Surroundings.Alike fun k' k => R k k' where
  resolve h family name := (hR.resolve h family name).symm
  family h := (hR.family h).symm
  port h := (hR.port h).symm
  listLength h := (hR.listLength h).symm
  listEntry? h i := (hR.listEntry? h i).symm
  refresh h := hR.refresh h

namespace Coercion

variable {κ κ' : Type} [Surroundings κ] [Surroundings κ']
variable {R : κ → κ' → Prop} {k : κ} {k' : κ'}

/-- Lists that have been read if they were empty look alike. -/
theorem ensureAssociations_alike (hR : Surroundings.Alike R)
    (h : R k k') : R (ensureAssociations k) (ensureAssociations k') := by
  unfold ensureAssociations
  rw [hR.listLength h]
  by_cases hlen : Surroundings.listLength k' = 0
  · rw [if_pos hlen, if_pos hlen]
    exact hR.refresh h
  · rw [if_neg hlen, if_neg hlen]
    exact h

theorem select_alike (hR : Surroundings.Alike R) (h : R k k')
    (index : Nat) : select index k = select index k' := by
  unfold select
  rw [hR.listLength h]
  dsimp only
  rw [hR.listEntry? h]

/-- An index selects the same association. -/
theorem association_alike (hR : Surroundings.Alike R) (h : R k k')
    (raw : String) (body : List Char) :
    (association raw body k).1 = (association raw body k').1
      ∧ R (association raw body k).2 (association raw body k').2 := by
  unfold association
  cases Text.readUnsigned? 10 UInt64.size body with
  | none => exact ⟨rfl, h⟩
  | some index =>
    have hlist := ensureAssociations_alike hR h
    dsimp only
    rw [select_alike hR hlist]
    cases select index (ensureAssociations k') with
    | ok assid => exact ⟨rfl, hlist⟩
    | error fault => exact ⟨rfl, hlist⟩

theorem address_alike (hR : Surroundings.Alike R) (h : R k k')
    (raw : String) : address raw k = address raw k' := by
  unfold address
  rw [hR.resolve h, hR.family h, hR.port h]

/-- A word is read as the same argument. -/
theorem coerce_alike (hR : Surroundings.Alike R) (h : R k k')
    (kind : ArgumentKind) (raw : String) :
    (coerce kind raw k).1 = (coerce kind raw k').1
      ∧ R (coerce kind raw k).2 (coerce kind raw k').2 := by
  unfold coerce
  cases kind with
  | text => exact ⟨rfl, h⟩
  | address => exact ⟨address_alike hR h raw, h⟩
  | signed => exact ⟨rfl, h⟩
  | ipVersion => exact ⟨rfl, h⟩
  | unsigned =>
    dsimp only
    split
    · exact association_alike hR h raw _
    · exact ⟨rfl, h⟩

/-- Words are read as the same arguments, from left to right. -/
theorem coerceAll_alike (hR : Surroundings.Alike R) (h : R k k')
    (keyword : String) (slots : List Slot) (raws : List String) :
    (coerceAll keyword slots raws k).1 = (coerceAll keyword slots raws k').1
      ∧ R (coerceAll keyword slots raws k).2
        (coerceAll keyword slots raws k').2 := by
  induction slots generalizing raws k k' with
  | nil => exact ⟨rfl, h⟩
  | cons slot slots ih =>
    cases raws with
    | nil => exact ⟨rfl, h⟩
    | cons raw raws =>
      -- the rest is read in what the first word leaves, which is alike again
      obtain ⟨heq, hnext⟩ := coerce_alike hR h slot.kind raw
      obtain ⟨result, m, m', hp, hp'⟩ := exists_of_fst_eq heq
      unfold coerceAll
      rw [hp, hp'] at hnext ⊢
      cases result with
      | error e => exact ⟨rfl, hnext⟩
      | ok a =>
        obtain ⟨heq, hrest⟩ := ih hnext raws
        obtain ⟨rest, n, n', hq, hq'⟩ := exists_of_fst_eq heq
        dsimp only at hq hq' hrest ⊢
        rw [hq, hq'] at hrest ⊢
        cases rest with
        | error e => exact ⟨rfl, hrest⟩
        | ok rest => exact ⟨rfl, hrest⟩

/-- **Alike surroundings give the same arguments**, and look alike
afterwards. -/
theorem invocation_alike (hR : Surroundings.Alike R) (h : R k k')
    (keyword : String) (slots : List Slot) (raws : List String) :
    (invocation keyword slots raws k).1 = (invocation keyword slots raws k').1
      ∧ R (invocation keyword slots raws k).2
        (invocation keyword slots raws k').2 := by
  obtain ⟨heq, hnext⟩ :=
    coerceAll_alike hR h keyword (slots.take maxSlots) raws
  obtain ⟨result, m, m', hp, hp'⟩ := exists_of_fst_eq heq
  unfold invocation
  rw [hp, hp'] at hnext ⊢
  cases result with
  | error e => exact ⟨rfl, hnext⟩
  | ok arguments => exact ⟨rfl, hnext⟩

/-- **An argument is of the kind** that its slot takes. -/
theorem kind_of_coerce {kind : ArgumentKind} {raw : String} {a : Argument}
    (h : (coerce kind raw k).1 = .ok a) : a.kind = kind := by
  unfold coerce at h
  cases kind with
  | text =>
    obtain rfl := Except.ok.inj h
    rfl
  | address =>
    unfold address at h
    dsimp only at h
    split at h <;> cases h
    rfl
  | unsigned =>
    unfold association unsigned at h
    dsimp only at h
    split at h
    · split at h
      · cases h
      · split at h <;> cases h
        rfl
    · dsimp only at h
      split at h <;> cases h
      rfl
  | signed =>
    unfold signed at h
    dsimp only at h
    split at h <;> cases h
    rfl
  | ipVersion =>
    unfold ipVersion at h
    dsimp only at h
    split at h <;> cases h
    rfl

/-- **A word that cannot be read** is quoted by the failure. -/
theorem ofWord_of_coerce {kind : ArgumentKind} {raw : String} {e : Failure}
    (h : (coerce kind raw k).1 = .error e) : e.OfWord raw := by
  unfold coerce at h
  cases kind with
  | text => cases h
  | address =>
    unfold address at h
    dsimp only at h
    split at h <;> cases h
    rfl
  | unsigned =>
    unfold association unsigned at h
    dsimp only at h
    split at h
    · split at h
      · cases h
        rfl
      · split at h <;> cases h
        rfl
    · dsimp only at h
      split at h <;> cases h
      rfl
  | signed =>
    unfold signed at h
    dsimp only at h
    split at h <;> cases h
    rfl
  | ipVersion =>
    unfold ipVersion at h
    dsimp only at h
    split at h <;> cases h
    rfl

/-- **The only slot** takes the first word, and no other is looked at. -/
theorem invocation_one (keyword : String) (slot : Slot) (raw : String)
    (raws : List String) (k : κ) :
    invocation keyword [slot] (raw :: raws) k
      = ((coerce slot.kind raw k).1.map fun a => ⟨keyword, [a]⟩,
        (coerce slot.kind raw k).2) := by
  unfold invocation
  rw [show [slot].take maxSlots = [slot] from rfl]
  unfold coerceAll
  rcases coerce slot.kind raw k with ⟨e | a, m⟩ <;> rfl

/-- **A word for the only slot** gives the only argument. -/
theorem exists_of_invocation_one {keyword : String} {slot : Slot}
    {raw : String} {raws : List String} {i : Invocation} {q : κ}
    (h : invocation keyword [slot] (raw :: raws) k = (.ok i, q)) :
    ∃ a, i = ⟨keyword, [a]⟩ ∧ a.kind = slot.kind := by
  rw [invocation_one] at h
  rcases hread : coerce slot.kind raw k with ⟨e | a, m⟩
  · rw [hread] at h
    exact nomatch h
  · rw [hread] at h
    obtain rfl := Except.ok.inj (Prod.mk.inj h).1
    exact ⟨a, rfl, kind_of_coerce (by rw [hread])⟩

end Coercion

/-- **Surroundings that keep account** of when the list of associations
was read anew. -/
structure Noted (κ : Type) where
  /-- The surroundings as they are now. -/
  now : κ
  /-- The surroundings as they were each time before the list was read,
  oldest first. -/
  before : List κ

instance {κ : Type} [Surroundings κ] : Surroundings (Noted κ) where
  world k := Surroundings.world k.now
  family k := Surroundings.family k.now
  port k := Surroundings.port k.now
  listLength k := Surroundings.listLength k.now
  listEntry? k := Surroundings.listEntry? k.now
  refresh k := ⟨Surroundings.refresh k.now, k.before ++ [k.now]⟩

/-- **Keeping account changes nothing**, and what holds of the account
holds throughout if reading the list anew keeps it. -/
theorem Noted.alike {κ : Type} [Surroundings κ] {I : Noted κ → Prop}
    (hI : ∀ n, I n → I (Surroundings.refresh n)) :
    Surroundings.Alike fun (k : κ) n => n.now = k ∧ I n where
  resolve h family name := by rw [← h.1]; rfl
  family h := by rw [← h.1]; rfl
  port h := by rw [← h.1]; rfl
  listLength h := by rw [← h.1]; rfl
  listEntry? h i := by rw [← h.1]; rfl
  refresh h := ⟨congrArg Surroundings.refresh h.1, hI _ h.2⟩

end NtpQuery
