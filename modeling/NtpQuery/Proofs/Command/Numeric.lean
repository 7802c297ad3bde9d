import NtpQuery.Proofs.Command.Coercion
import NtpQuery.Proofs.Command.Consultation
import NtpQuery.Proofs.Command.Steady
import NtpQuery.Proofs.Session.Tape
import NtpQuery.Proofs.Text.Numeral

/-!
# Settings that are numbers

Four commands set or show a number each: the wait for a response, the
authentication delay, the version that requests claim, and the key. They
differ in what their argument is, in the numbers that they take, in what they
say when they do not take one, and in whether they show a number as soon as
it is set. `NumericSetting` names the four, and what they differ in is said of
each by a table.

A number passes through three types on its way: it is read as an argument of
64 bits, kept as a setting of 64, 32 or 8 bits, and shown from there. Nothing
is lost on the way, since what a command takes fits what it keeps: the line
that shows the setting shows the number (`NumericSetting.perform_show`).
-/

namespace NtpQuery

open Text

/-- **A setting that is a number.** -/
inductive NumericSetting where
  /-- The wait for the first fragment of a response. -/
  | timeout
  /-- The authentication delay. -/
  | delay
  /-- The version that requests claim. -/
  | version
  /-- The key to authenticate with. -/
  | key
  deriving DecidableEq

namespace NumericSetting

/-! ## The tables -/

/-- The command that sets and shows it. -/
def keyword : NumericSetting → String
  | timeout => "timeout"
  | delay => "delay"
  | version => "ntpversion"
  | key => "keyid"

/-- What the command does. -/
def action : NumericSetting → Handler
  | timeout => Settings.timeout
  | delay => Settings.delay
  | version => Settings.ntpVersion
  | key => Settings.keyId

/-- The kind of its argument. -/
def kind : NumericSetting → ArgumentKind
  | delay => .signed
  | timeout | version | key => .unsigned

/-- **A text is a number** of the kind that the command reads. -/
def Reads (x : NumericSetting) (n : Int) (t : String) : Prop :=
  match x with
  | delay => IsSignedNumeral (Nat.pow 2 63) n t.toList
  | timeout | version | key =>
    ∃ m : Nat, n = m ∧ IsNumeral UInt64.size m t.toList

/-- The failure of a text that is not. -/
def refusal : NumericSetting → String → Failure
  | delay => .invalidSigned
  | timeout | version | key => .invalidUnsigned

/-- The least and the greatest number that can be read. -/
def bounds : NumericSetting → Int × Int
  | delay => (-Nat.pow 2 63, Nat.pow 2 63 - 1)
  | timeout | version | key => (0, UInt64.size - 1)

/-- The least and the greatest number that the command takes. -/
def limits : NumericSetting → Int × Int
  | timeout => (0, UInt64.size - 1)
  | delay => (-Nat.pow 2 63, Nat.pow 2 63 - 1)
  | version => (1, 4)
  | key => (0, UInt32.size - 1)

/-- **The command takes a number.** -/
def Takes (x : NumericSetting) (n : Int) : Prop :=
  x.limits.1 ≤ n ∧ n ≤ x.limits.2

/-- What the command says of a number that it does not take, if there are
such numbers. -/
def complaint? : NumericSetting → Int → Option ArgumentError
  | timeout, _ | delay, _ => none
  | version, _ => some .unknownVersion
  | key, n => some (.keyTooLarge n.toNat)

/-- The setting that a number makes; as a key, zero stands for none. -/
def setting : NumericSetting → Int → Setting
  | timeout, n => .timeout (UInt64.ofNat n.toNat)
  | delay, n => .delay (Int64.ofInt n)
  | version, n => .version (UInt8.ofNat n.toNat)
  | key, n => .key (if n = 0 then none else some (UInt32.ofNat n.toNat))

/-- The line that shows a number. -/
def line : NumericSetting → Int → String
  | timeout, n => "primary timeout " ++ signedDecimal n ++ " ms"
  | delay, n => "delay " ++ signedDecimal n ++ " ms"
  | version, n => "NTP version being claimed is " ++ signedDecimal n
  | key, n =>
    if n = 0 then "keyid is unspecified" else "keyid is " ++ signedDecimal n

/-- What the command shows of a number as soon as it is set. -/
def echo : NumericSetting → Int → List String
  | timeout, _ | delay, _ => []
  | version, n => [line version n]
  | key, n => [line key n]

/-- The commands are in the tables. -/
theorem exists_resolve (x : NumericSetting) :
    ∃ c, Standard.tables.resolve x.keyword = some c ∧ c.keyword = x.keyword
      ∧ c.slots = [optional x.kind] ∧ c.action = x.action := by
  cases x with
  | timeout => exact ⟨Standard.core[2], rfl, rfl, rfl, rfl⟩
  | delay => exact ⟨Standard.core[3], rfl, rfl, rfl, rfl⟩
  | version => exact ⟨Standard.core[9], rfl, rfl, rfl, rfl⟩
  | key => exact ⟨Standard.core[10], rfl, rfl, rfl, rfl⟩

variable {x : NumericSetting} {n : Int} {t : String}

/-! ## Reading the number -/

/-- A text is at most one number. -/
theorem Reads.unique {m : Int} (hm : x.Reads m t) (hn : x.Reads n t) :
    m = n := by
  have hunsigned : (∃ k : Nat, m = k ∧ IsNumeral UInt64.size k t.toList) →
      (∃ k : Nat, n = k ∧ IsNumeral UInt64.size k t.toList) → m = n := by
    rintro ⟨j, rfl, hj⟩ ⟨k, rfl, hk⟩
    rw [hj.unique hk]
  cases x with
  | delay => exact IsSignedNumeral.unique (by decide) hm hn
  | timeout => exact hunsigned hm hn
  | version => exact hunsigned hm hn
  | key => exact hunsigned hm hn

/-- A number that has been read is within bounds. -/
theorem Reads.bounds (h : x.Reads n t) :
    x.bounds.1 ≤ n ∧ n ≤ x.bounds.2 := by
  have hunsigned : (∃ k : Nat, n = k ∧ IsNumeral UInt64.size k t.toList) →
      0 ≤ n ∧ n ≤ UInt64.size - 1 := by
    rintro ⟨k, rfl, -, -, -, -, -, hlt⟩
    omega
  cases x with
  | delay =>
    obtain ⟨-, -, -, -, hle, hlt⟩ := h
    exact ⟨hle, Int.le_sub_one_of_lt hlt⟩
  | timeout => exact hunsigned h
  | version => exact hunsigned h
  | key => exact hunsigned h

/-- The number as an argument. -/
def argument : NumericSetting → Int → Argument
  | delay, n => .signed (Int64.ofInt n)
  | timeout, n | version, n | key, n => .unsigned (UInt64.ofNat n.toNat)

variable {κ : Type} [Surroundings κ]

/-- **A number is read**, unless the text is an index. -/
theorem coerce_of_reads (hplain : t.toList.head? ≠ some '&')
    (h : x.Reads n t) (k : κ) :
    Coercion.coerce x.kind t k = (.ok (x.argument n), k) := by
  have hunsigned : (∃ m : Nat, n = m ∧ IsNumeral UInt64.size m t.toList) →
      Coercion.coerce .unsigned t k
        = (.ok (.unsigned (UInt64.ofNat n.toNat)), k) := by
    rintro ⟨m, rfl, hm⟩
    rcases Coercion.coerce_unsigned_cases t k with ⟨body, hbody, -⟩ | ⟨-, heq⟩
    · exact absurd (by rw [hbody]; rfl) hplain
    · rw [heq]
      unfold Coercion.unsigned
      rw [readUnsigned?_eq_some_iff.mpr hm]
      rfl
  cases x with
  | delay =>
    show (Coercion.signed t, k) = _
    unfold Coercion.signed
    rw [(readSigned?_eq_some_iff (by decide)).mpr h]
    rfl
  | timeout => exact hunsigned h
  | version => exact hunsigned h
  | key => exact hunsigned h

/-- **Nothing else is.** -/
theorem coerce_of_not_reads (hplain : t.toList.head? ≠ some '&')
    (h : ∀ n, ¬ x.Reads n t) (k : κ) :
    Coercion.coerce x.kind t k = (.error (x.refusal t), k) := by
  have hunsigned :
      (∀ n, ¬ ∃ m : Nat, n = (m : Int) ∧ IsNumeral UInt64.size m t.toList) →
      Coercion.coerce .unsigned t k = (.error (.invalidUnsigned t), k) := by
    intro hnone
    rcases Coercion.coerce_unsigned_cases t k with ⟨body, hbody, -⟩ | ⟨-, heq⟩
    · exact absurd (by rw [hbody]; rfl) hplain
    · rw [heq]
      unfold Coercion.unsigned
      cases hread : readUnsigned? 10 UInt64.size t.toList with
      | none => rfl
      | some m =>
        exact absurd ⟨m, rfl, readUnsigned?_eq_some_iff.mp hread⟩ (hnone m)
  cases x with
  | delay =>
    show (Coercion.signed t, k) = _
    unfold Coercion.signed
    cases hread : readSigned? (Nat.pow 2 63) t.toList with
    | none => rfl
    | some n =>
      exact absurd ((readSigned?_eq_some_iff (by decide)).mp hread) (h n)
  | timeout => exact hunsigned h
  | version => exact hunsigned h
  | key => exact hunsigned h

/-! ## Setting and showing it -/

/-- What the command shows of what is remembered. -/
def shown : NumericSetting → Client.State → String
  | timeout, s => "primary timeout " ++ decimal s.timeout.toNat ++ " ms"
  | delay, s => "delay " ++ signedDecimal s.delay.toInt ++ " ms"
  | version, s => "NTP version being claimed is " ++ decimal s.version.toNat
  | key, s =>
    match s.key with
    | some id => "keyid is " ++ decimal id.toNat
    | none => "keyid is unspecified"

/-- **A number that is taken fits what keeps it**: the number is shown. -/
theorem shown_apply (hn : x.Takes n) (s : Client.State) :
    x.shown ((x.setting n).apply s) = x.line n := by
  obtain ⟨hle, hge⟩ := hn
  cases x with
  | timeout =>
    obtain ⟨m, rfl⟩ := Int.eq_ofNat_of_zero_le hle
    have hlt : m < UInt64.size := by
      have hge : (m : Int) ≤ UInt64.size - 1 := hge
      omega
    show "primary timeout " ++ decimal (UInt64.ofNat m).toNat ++ " ms" = _
    rw [UInt64.toNat_ofNat_of_lt' hlt, ← signedDecimal_natCast]
    rfl
  | delay =>
    show "delay " ++ signedDecimal (Int64.ofInt n).toInt ++ " ms" = _
    rw [Int64.toInt_ofInt_of_le hle (Int.lt_of_le_sub_one hge)]
    rfl
  | version =>
    obtain ⟨m, rfl⟩ := Int.eq_ofNat_of_zero_le (Int.le_trans (by decide) hle)
    have hlt : m < UInt8.size := by
      have hge : (m : Int) ≤ 4 := hge
      show m < 256
      omega
    show "NTP version being claimed is " ++ decimal (UInt8.ofNat m).toNat = _
    rw [UInt8.toNat_ofNat_of_lt' hlt, ← signedDecimal_natCast]
    rfl
  | key =>
    obtain ⟨m, rfl⟩ := Int.eq_ofNat_of_zero_le hle
    have hlt : m < UInt32.size := by
      have hge : (m : Int) ≤ UInt32.size - 1 := hge
      omega
    by_cases hzero : (m : Int) = 0
    · obtain rfl := Int.ofNat_eq_zero.mp hzero
      rfl
    · have hkey : ((setting key m).apply s).key = some (UInt32.ofNat m) :=
        if_neg hzero
      unfold shown line
      dsimp only
      rw [hkey, if_neg hzero, signedDecimal_natCast]
      dsimp only
      rw [UInt32.toNat_ofNat_of_lt' hlt]

variable {τ : Type} [Transport τ]

/-- **Without an argument** the command shows what is remembered. -/
theorem perform_show (x : NumericSetting) (tables : Tables Unit)
    (keyword : String) (r : Run τ Tape) :
    r.perform tables (x.action ⟨keyword, []⟩)
      = (.ok (), r.told [x.shown r.client.state]) := by
  cases x with
  | timeout => exact Run.perform_printLine _ _ _
  | delay => exact Run.perform_printLine _ _ _
  | version => exact Run.perform_printLine _ _ _
  | key =>
    show r.perform tables (Settings.keyId ⟨keyword, []⟩) = _
    unfold Settings.keyId
    rw [Run.perform_bind]
    show r.perform tables (Routine.state >>= _) = _
    rw [Run.perform_bind, Run.perform_state]
    dsimp only [shown]
    cases r.client.state.key with
    | none => exact Run.perform_printLine _ _ _
    | some id => exact Run.perform_printLine _ _ _

/-- A number within the bounds is an argument of the same value. -/
theorem toNat_argument (hle : 0 ≤ n) (hge : n ≤ UInt64.size - 1) :
    (UInt64.ofNat n.toNat).toNat = n.toNat :=
  UInt64.toNat_ofNat_of_lt' (by omega)

/-- **A number that is taken is set**, and shown if the command does. -/
theorem perform_set (tables : Tables Unit) (keyword : String)
    (hn : x.Takes n) (r : Run τ Tape) :
    r.perform tables (x.action ⟨keyword, [x.argument n]⟩)
      = (.ok (), Run.told
        { r with client := r.client.modify (x.setting n).apply }
        (x.echo n)) := by
  -- what two of the commands go on with is what they do without an argument
  have hshow := (perform_show x tables keyword
    { r with client := r.client.modify (x.setting n).apply }).trans
      (congrArg (fun line => (Except.ok (), Run.told _ [line]))
        (shown_apply hn r.client.state))
  obtain ⟨hle, hge⟩ := hn
  cases x with
  | timeout => exact Prod.ext rfl (Run.told_nil _).symm
  | delay => exact Prod.ext rfl (Run.told_nil _).symm
  | version =>
    have hset : r.perform tables
        (Settings.setVersion (some (UInt64.ofNat n.toNat)))
          = (.ok (), { r with
            client := r.client.modify (setting version n).apply }) := by
      have hle : (1 : Int) ≤ n := hle
      have hge : n ≤ (4 : Int) := hge
      have hsize : 4 < UInt64.size := by decide
      unfold Settings.setVersion
      dsimp only
      rw [toNat_argument (by omega) (by omega), if_pos]
      · rfl
      · exact ⟨by show 1 ≤ n.toNat; omega, by show n.toNat ≤ 4; omega⟩
    show r.perform tables
      (Settings.setVersion (some (UInt64.ofNat n.toNat)) >>= _) = _
    rw [Run.perform_bind, hset]
    exact hshow
  | key =>
    have hset : r.perform tables
        (Settings.setKey (some (UInt64.ofNat n.toNat)))
          = (.ok (), { r with
            client := r.client.modify (setting key n).apply }) := by
      have hle : (0 : Int) ≤ n := hle
      have hge : n ≤ (UInt32.size : Int) - 1 := hge
      have hsize : UInt32.size ≤ UInt64.size := by decide
      have hvalue := toNat_argument hle (by omega)
      have hzero : UInt64.ofNat n.toNat = 0 ↔ n = 0 := by
        rw [← UInt64.toNat_inj, hvalue]
        show n.toNat = 0 ↔ n = 0
        omega
      unfold Settings.setKey
      dsimp only
      simp only [hvalue, hzero]
      rw [if_pos (by omega)]
      rfl
    show r.perform tables
      (Settings.setKey (some (UInt64.ofNat n.toNat)) >>= _) = _
    rw [Run.perform_bind, hset]
    exact hshow

/-- A number that can be read and is not taken is complained of. -/
theorem exists_complaint (hbounds : x.bounds.1 ≤ n ∧ n ≤ x.bounds.2)
    (hn : ¬ x.Takes n) : ∃ e, x.complaint? n = some e := by
  cases x with
  | timeout => exact absurd hbounds hn
  | delay => exact absurd hbounds hn
  | version => exact ⟨_, rfl⟩
  | key => exact ⟨_, rfl⟩

/-- **A number that is not taken** changes nothing. -/
theorem perform_object (tables : Tables Unit) (keyword : String)
    (hbounds : x.bounds.1 ≤ n ∧ n ≤ x.bounds.2) (hn : ¬ x.Takes n)
    {e : ArgumentError} (he : x.complaint? n = some e) (r : Run τ Tape) :
    r.perform tables (x.action ⟨keyword, [x.argument n]⟩)
      = (.error (.argument e), r) := by
  obtain ⟨hle, hge⟩ := hbounds
  cases x with
  | timeout => exact nomatch he
  | delay => exact nomatch he
  | version =>
    obtain rfl := Option.some.inj he
    have hset : Settings.setVersion (some (UInt64.ofNat n.toNat))
        = throw (.argument .unknownVersion) := by
      unfold Settings.setVersion
      dsimp only
      rw [toNat_argument hle hge, if_neg]
      rintro ⟨hold, hnew⟩
      have hold : 1 ≤ n.toNat := hold
      have hnew : n.toNat ≤ 4 := hnew
      exact hn ⟨by show (1 : Int) ≤ n; omega, by show n ≤ (4 : Int); omega⟩
    show r.perform tables
      (Settings.setVersion (some (UInt64.ofNat n.toNat)) >>= _) = _
    rw [Run.perform_bind, hset]
    rfl
  | key =>
    obtain rfl := Option.some.inj he
    have hset : Settings.setKey (some (UInt64.ofNat n.toNat))
        = throw (.argument (.keyTooLarge n.toNat)) := by
      unfold Settings.setKey
      dsimp only
      rw [toNat_argument hle hge, if_neg]
      intro hlt
      exact hn ⟨hle, by show n ≤ (UInt32.size : Int) - 1; omega⟩
    show r.perform tables
      (Settings.setKey (some (UInt64.ofNat n.toNat)) >>= _) = _
    rw [Run.perform_bind, hset]
    rfl

end NumericSetting

end NtpQuery
