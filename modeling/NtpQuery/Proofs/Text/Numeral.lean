import NtpQuery.Text.Numeral

/-!
# What numerals are read

A numeral is read digit by digit. Which texts are read, and as which
number, is said here without a reader: a decimal numeral is a run of
digits, with or without a `+` in front, and its value is that of its
digits (`Text.readUnsigned?_eq_some_iff`). A signed numeral may have a `-`
there as well (`Text.readSigned?_eq_some_iff`). A number that is written in
canonical form is read back (`Text.readUnsigned?_decimal`), and the form is
what it is called: no sign that is not needed, and no zero in front
(`Text.isCanonical_signedDecimal`).
-/

namespace NtpQuery.Text

/-- **The number that decimal digits stand for**, most significant digit
first. -/
def decimalValue (ds : List Char) : Nat :=
  ds.foldl (fun n c => 10 * n + (c.toNat - 48)) 0

/-- **A decimal numeral** below `bound`: digits, at least one, with or
without a `+` in front. -/
def IsNumeral (bound n : Nat) (s : List Char) : Prop :=
  ∃ ds, (s = ds ∨ s = '+' :: ds) ∧ ds ≠ [] ∧ (∀ c ∈ ds, c.isDigit = true)
    ∧ decimalValue ds = n ∧ n < bound

/-- The decimal digits are the characters from `0` to `9`. -/
theorem isDigit_iff (c : Char) :
    c.isDigit = true ↔ 48 ≤ c.toNat ∧ c.toNat ≤ 57 := by
  simp only [Char.isDigit, Bool.and_eq_true, decide_eq_true_eq, ge_iff_le,
    UInt32.le_iff_toNat_le]
  exact Iff.rfl

/-- A decimal digit stands for its distance from `0`. -/
theorem digitValue?_of_isDigit {c : Char} (h : c.isDigit = true) :
    digitValue? 10 c = some (c.toNat - 48) := by
  have hc := (isDigit_iff c).mp h
  unfold digitValue?
  dsimp only
  rw [if_pos hc, Option.filter_some, if_pos (by simp; omega)]

/-- Nothing else is a digit of a decimal numeral. -/
theorem digitValue?_of_not_isDigit {c : Char} (h : ¬ c.isDigit = true) :
    digitValue? 10 c = none := by
  rw [isDigit_iff] at h
  unfold digitValue?
  dsimp only
  rw [if_neg h]
  -- a letter stands for ten or more
  split
  · rw [Option.filter_some, if_neg (by simp; omega)]
  · split
    · rw [Option.filter_some, if_neg (by simp; omega)]
    · rfl

/-- **Digits are read one after the other**, behind what has been read. -/
theorem readDigits?_eq_some_iff {acc n : Nat} {ds : List Char} :
    readDigits? 10 acc ds = some n ↔ (∀ c ∈ ds, c.isDigit = true)
      ∧ ds.foldl (fun n c => 10 * n + (c.toNat - 48)) acc = n := by
  induction ds generalizing acc with
  | nil => simp [readDigits?]
  | cons c ds ih =>
    rw [List.forall_mem_cons, List.foldl_cons, readDigits?]
    by_cases hc : c.isDigit = true
    · rw [digitValue?_of_isDigit hc]
      simp only [hc, true_and]
      exact ih
    · rw [digitValue?_of_not_isDigit hc]
      simp [hc]

/-- A numeral without a sign is a run of digits. -/
theorem readNumeral?_eq_some_iff {n : Nat} {ds : List Char} :
    readNumeral? 10 ds = some n ↔ ds ≠ [] ∧ (∀ c ∈ ds, c.isDigit = true)
      ∧ decimalValue ds = n := by
  unfold readNumeral?
  cases ds with
  | nil => simp
  | cons c ds =>
    rw [if_neg (by simp), readDigits?_eq_some_iff]
    simp [decimalValue]

/-- **What is read as an unsigned number**, and as which. -/
theorem readUnsigned?_eq_some_iff {bound n : Nat} {s : List Char} :
    readUnsigned? 10 bound s = some n ↔ IsNumeral bound n s := by
  have hbody : ∀ ds, ((readNumeral? 10 ds).filter (· < bound) = some n ↔
      ds ≠ [] ∧ (∀ c ∈ ds, c.isDigit = true) ∧ decimalValue ds = n
        ∧ n < bound) := by
    intro ds
    rw [Option.filter_eq_some_iff, readNumeral?_eq_some_iff,
      decide_eq_true_eq, and_assoc, and_assoc]
  unfold readUnsigned? IsNumeral
  split
  next rest =>
    rw [hbody]
    constructor
    · exact fun h => ⟨rest, Or.inr rfl, h⟩
    · rintro ⟨ds, rfl | hds, h⟩
      · -- a sign is no digit
        exact absurd (h.2.1 '+' List.mem_cons_self) (by decide)
      · rwa [(List.cons.inj hds).2]
  next hsign =>
    rw [hbody]
    constructor
    · exact fun h => ⟨s, Or.inl rfl, h⟩
    · rintro ⟨ds, rfl | rfl, h⟩
      · exact h
      · exact absurd rfl (hsign ds)

/-- The digit of a number below ten. -/
theorem digitChar_spec {d : Nat} (h : d < 10) :
    (digitChar d).isDigit = true ∧ (digitChar d).toNat = 48 + d := by
  have hall : ∀ d < 10,
      (digitChar d).isDigit = true ∧ (digitChar d).toNat = 48 + d := by
    decide
  exact hall d h

/-- **The canonical numeral** of a number is a numeral of it. -/
theorem digits_spec (n : Nat) :
    digits 10 n ≠ [] ∧ (∀ c ∈ digits 10 n, c.isDigit = true)
      ∧ decimalValue (digits 10 n) = n := by
  induction n using Nat.strongRecOn with
  | ind n ih =>
    rw [digits]
    by_cases hn : n < 10
    · obtain ⟨hdigit, hvalue⟩ := digitChar_spec hn
      rw [dif_pos (Or.inl hn)]
      refine ⟨List.cons_ne_nil _ _, ?_, ?_⟩
      · simpa using hdigit
      · show 10 * 0 + ((digitChar n).toNat - 48) = n
        omega
    · obtain ⟨-, hdigits, hvalue⟩ := ih (n / 10) (by omega)
      obtain ⟨hlast, hunit⟩ := digitChar_spec (Nat.mod_lt n (by decide))
      rw [dif_neg (by omega)]
      refine ⟨by simp, fun c hc => ?_, ?_⟩
      · rcases List.mem_append.mp hc with hc | hc
        · exact hdigits c hc
        · rwa [List.mem_singleton.mp hc]
      · unfold decimalValue at hvalue ⊢
        rw [List.foldl_append, hvalue]
        show 10 * (n / 10) + ((digitChar (n % 10)).toNat - 48) = n
        omega

theorem toList_decimal (n : Nat) : (decimal n).toList = digits 10 n :=
  String.toList_ofList

/-- **A number is read back** from its canonical numeral. -/
theorem readUnsigned?_decimal {bound n : Nat} (h : n < bound) :
    readUnsigned? 10 bound (decimal n).toList = some n := by
  rw [readUnsigned?_eq_some_iff, toList_decimal]
  obtain ⟨hne, hdigits, hvalue⟩ := digits_spec n
  exact ⟨digits 10 n, Or.inl rfl, hne, hdigits, hvalue, h⟩

/-! ## Signed numerals -/

/-- **A signed decimal numeral** of at least `-half` and below `half`:
digits, at least one, with or without a sign in front. -/
def IsSignedNumeral (half : Nat) (n : Int) (s : List Char) : Prop :=
  ∃ ds, (((s = ds ∨ s = '+' :: ds) ∧ n = decimalValue ds)
      ∨ s = '-' :: ds ∧ n = -decimalValue ds)
    ∧ ds ≠ [] ∧ (∀ c ∈ ds, c.isDigit = true)
    ∧ -(half : Int) ≤ n ∧ n < half

/-- Without a `-` in front, a signed numeral is an unsigned one. -/
theorem isSignedNumeral_iff_of_no_minus {half : Nat} {n : Int}
    {s : List Char} (hs : s.head? ≠ some '-') :
    IsSignedNumeral half n s ↔ ∃ m : Nat, n = m ∧ IsNumeral half m s := by
  unfold IsSignedNumeral IsNumeral
  constructor
  · rintro ⟨ds, ⟨hform, rfl⟩ | ⟨rfl, -⟩, hne, hdigits, -, hlt⟩
    · exact ⟨_, rfl, ds, hform, hne, hdigits, rfl, by omega⟩
    · exact absurd rfl hs
  · rintro ⟨m, rfl, ds, hform, hne, hdigits, rfl, hlt⟩
    exact ⟨ds, Or.inl ⟨hform, rfl⟩, hne, hdigits, by omega, by omega⟩

/-- Behind a `-` stands the amount. -/
theorem isSignedNumeral_minus_iff {half : Nat} (hhalf : 0 < half) {n : Int}
    {ds : List Char} :
    IsSignedNumeral half n ('-' :: ds) ↔ ∃ m : Nat,
      ((ds ≠ [] ∧ (∀ c ∈ ds, c.isDigit = true) ∧ decimalValue ds = m)
        ∧ m ≤ half) ∧ -(m : Int) = n := by
  unfold IsSignedNumeral
  constructor
  · rintro ⟨es, ⟨hform, -⟩ | ⟨hform, rfl⟩, hne, hdigits, hle, -⟩
    · rcases hform with rfl | hform
      · -- a sign is no digit
        exact absurd (hdigits '-' List.mem_cons_self) (by decide)
      · exact absurd (List.cons.inj hform).1 (by decide)
    · obtain rfl := (List.cons.inj hform).2
      exact ⟨_, ⟨⟨hne, hdigits, rfl⟩, by omega⟩, rfl⟩
  · rintro ⟨m, ⟨⟨hne, hdigits, rfl⟩, hle⟩, rfl⟩
    exact ⟨ds, Or.inr ⟨rfl, rfl⟩, hne, hdigits, by omega, by omega⟩

/-- Behind a `-` the amount is read. -/
theorem readSigned?_minus (half : Nat) (ds : List Char) :
    readSigned? half ('-' :: ds)
      = ((readNumeral? 10 ds).filter (· ≤ half)).map fun m : Nat =>
        -(m : Int) := by
  rw [readSigned?]
  cases (readNumeral? 10 ds).filter (· ≤ half) <;> rfl

/-- Without one, an unsigned number is read. -/
theorem readSigned?_of_no_minus (half : Nat) {s : List Char}
    (hs : s.head? ≠ some '-') :
    readSigned? half s
      = (readUnsigned? 10 half s).map fun m : Nat => (m : Int) := by
  unfold readSigned?
  split
  next => exact absurd rfl hs
  next => cases readUnsigned? 10 half s <;> rfl

/-- **What is read as a signed number**, and as which. -/
theorem readSigned?_eq_some_iff {half : Nat} (hhalf : 0 < half) {n : Int}
    {s : List Char} :
    readSigned? half s = some n ↔ IsSignedNumeral half n s := by
  by_cases hs : s.head? = some '-'
  · obtain ⟨ds, rfl⟩ := List.head?_eq_some_iff.mp hs
    rw [readSigned?_minus, isSignedNumeral_minus_iff hhalf,
      Option.map_eq_some_iff]
    refine exists_congr fun m => ?_
    rw [Option.filter_eq_some_iff, readNumeral?_eq_some_iff,
      decide_eq_true_eq]
  · rw [readSigned?_of_no_minus half hs, isSignedNumeral_iff_of_no_minus hs,
      Option.map_eq_some_iff]
    refine exists_congr fun m => ?_
    rw [readUnsigned?_eq_some_iff, and_comm, eq_comm]

/-- A text is a signed numeral of one number at most. -/
theorem IsSignedNumeral.unique {half : Nat} (hhalf : 0 < half) {m n : Int}
    {s : List Char} (hm : IsSignedNumeral half m s)
    (hn : IsSignedNumeral half n s) : m = n :=
  Option.some.inj (((readSigned?_eq_some_iff hhalf).mpr hm).symm.trans
    ((readSigned?_eq_some_iff hhalf).mpr hn))

/-- So is it an unsigned one. -/
theorem IsNumeral.unique {bound m n : Nat} {s : List Char}
    (hm : IsNumeral bound m s) (hn : IsNumeral bound n s) : m = n :=
  Option.some.inj ((readUnsigned?_eq_some_iff.mpr hm).symm.trans
    (readUnsigned?_eq_some_iff.mpr hn))

/-! ## Canonical numerals -/

/-- **The canonical numeral** of an integer: its digits, with a `-` in front
exactly if it is negative, and with no zero in front unless it is the only
digit. -/
def IsCanonical (n : Int) (s : List Char) : Prop :=
  ∃ ds, s = (if n < 0 then '-' :: ds else ds) ∧ ds ≠ []
    ∧ (∀ c ∈ ds, c.isDigit = true) ∧ decimalValue ds = n.natAbs
    ∧ (ds.head? = some '0' → ds = ['0'])

/-- A number above zero has no zero in front. -/
theorem head?_digits_ne_zero {n : Nat} (hn : 0 < n) :
    (digits 10 n).head? ≠ some '0' := by
  induction n using Nat.strongRecOn with
  | ind n ih =>
    rw [digits]
    by_cases hlt : n < 10
    · obtain ⟨-, hvalue⟩ := digitChar_spec hlt
      rw [dif_pos (Or.inl hlt), List.head?_cons]
      intro hzero
      rw [Option.some.inj hzero] at hvalue
      have : 48 = 48 + n := hvalue
      omega
    · obtain ⟨hne, -⟩ := digits_spec (n / 10)
      rw [dif_neg (by omega), List.head?_append,
        List.head?_eq_some_head hne, Option.some_or,
        ← List.head?_eq_some_head hne]
      exact ih (n / 10) (by omega) (by omega)

/-- **What is written of an integer is canonical.** -/
theorem isCanonical_signedDecimal (n : Int) :
    IsCanonical n (signedDecimal n).toList := by
  obtain ⟨hne, hdigits, hvalue⟩ := digits_spec n.natAbs
  refine ⟨digits 10 n.natAbs, ?_, hne, hdigits, hvalue, fun hzero => ?_⟩
  · unfold signedDecimal
    split
    · rw [String.toList_append, toList_decimal]
      rfl
    · exact toList_decimal _
  · rcases Nat.eq_zero_or_pos n.natAbs with habs | habs
    · rw [habs, digits]
      rfl
    · exact absurd hzero (head?_digits_ne_zero habs)

/-- A number that is not negative is written as one without a sign. -/
theorem signedDecimal_natCast (n : Nat) :
    signedDecimal n = decimal n := by
  unfold signedDecimal
  rw [if_neg (by omega), Int.natAbs_natCast]

end NtpQuery.Text
