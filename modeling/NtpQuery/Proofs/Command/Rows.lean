import NtpQuery.Command.Associations
import NtpQuery.Proofs.Command.Consultation
import NtpQuery.Proofs.Text.Trim
import NtpQuery.Session.Run

/-!
# The index column

The tables of associations number their rows, and a word such as `&3`
stands for the association that has the number 3 there. Both sides count
by themselves. The table numbers all entries of the list from one on and
then leaves out those that are not to be shown; reading an argument takes
the number from the word, cuts it to the length of the list and looks one
place before it. They agree for every list (`Associations.IndexColumn`):
what a row shows beside its index is what the index selects.
-/

namespace NtpQuery

namespace Text

/-- **A word ends at a blank.** -/
theorem words_append_blank {w : List Char} (s : List Char) (hne : w ≠ [])
    (hw : ∀ c ∈ w, isWhite c = false) :
    words (w ++ ' ' :: s) = w :: words s := by
  induction w with
  | nil => exact absurd rfl hne
  | cons c w ih =>
    have hc : ¬ isWhite c = true := by simp [hw c List.mem_cons_self]
    cases w with
    | nil =>
      rw [List.singleton_append, words, if_neg hc,
        if_pos (by rfl), words_cons_white (by decide)]
    | cons d w =>
      have hd : ¬ isWhite d = true := by simp [hw d (by simp)]
      have hrest := ih (List.cons_ne_nil d w)
        fun x hx => hw x (List.mem_cons_of_mem c hx)
      rw [List.cons_append, words, if_neg hc, hrest,
        if_neg (by simpa using hd)]

/-- A digit is not white. -/
theorem isWhite_of_isDigit {c : Char} (h : c.isDigit = true) :
    isWhite c = false := by
  have hc := (isDigit_iff c).mp h
  unfold isWhite
  simp only [Bool.or_eq_false_iff, Bool.and_eq_false_iff,
    decide_eq_false_iff_not, beq_eq_false_iff_ne]
  omega

/-- **A numeral set in a column** is the next word. -/
theorem words_padLeft_decimal (width n : Nat) (s : List Char) :
    words ((padLeft width (decimal n)).toList ++ ' ' :: s)
      = (decimal n).toList :: words s := by
  obtain ⟨hne, hdigits, -⟩ := digits_spec n
  unfold padLeft
  rw [String.toList_append, String.toList_ofList, List.append_assoc,
    words_white_append fun c hc => List.eq_of_mem_replicate hc ▸ rfl,
    toList_decimal]
  exact words_append_blank s hne
    fun c hc => isWhite_of_isDigit (hdigits c hc)

end Text

open Text

namespace Associations

/-- **The entries that a table shows**, each with its index. -/
def shown (all : Bool) (list : List Association) :
    List (Association × Nat) :=
  (list.zipIdx 1).filter fun x => all || x.1.isNotable

/-- There is one row for each of them, in order. -/
theorem rows_eq (all : Bool) (n : Nat) (list : List Association) :
    rows all n list = ((list.zipIdx n).filter fun x =>
      all || x.1.isNotable).map fun x => row x.2 x.1 := by
  induction list generalizing n with
  | nil => rfl
  | cons a list ih =>
    rw [rows, List.zipIdx_cons, List.filter_cons, ih]
    dsimp only
    split
    · rfl
    · rfl

/-- **A table with a heading** for a list that is not empty. -/
theorem table_of_ne_nil (all : Bool) {list : List Association}
    (h : list ≠ []) :
    table all list
      = heading ++ (shown all list).map fun x => row x.2 x.1 := by
  unfold table
  rw [if_neg (by simpa using h), rows_eq]
  rfl

/-- **An index is a place** in the whole list, counted from one. -/
theorem mem_shown_iff {all : Bool} {list : List Association}
    {x : Association × Nat} :
    x ∈ shown all list ↔ 1 ≤ x.2 ∧ list[x.2 - 1]? = some x.1
      ∧ (all = true ∨ x.1.isNotable = true) := by
  unfold shown
  rw [List.mem_filter, List.mk_mem_zipIdx_iff_le_and_getElem?_sub (x := x.1),
    Bool.or_eq_true, and_assoc]

/-- What is shown is the list with some entries left out. -/
theorem map_shown (all : Bool) (list : List Association) :
    (shown all list).map Prod.fst
      = list.filter fun a => all || a.isNotable := by
  have hzip : ∀ n, ((list.zipIdx n).filter fun x =>
      all || x.1.isNotable).map Prod.fst
        = list.filter fun a => all || a.isNotable := by
    intro n
    induction list generalizing n with
    | nil => rfl
    | cons a list ih =>
      rw [List.zipIdx_cons, List.filter_cons, List.filter_cons]
      dsimp only
      split
      · rw [List.map_cons, ih]
      · rw [ih]
  exact hzip 1

/-- **An association is notable** if the highest bit of its status is set,
or the fourth. -/
theorem isNotable_eq (a : Association) :
    a.isNotable = (a.status.toNat.testBit 15 || a.status.toNat.testBit 12) := by
  unfold Association.isNotable Status.isConfigured Status.isReachable
    Status.hasBit
  rw [Nat.testBit_eq_decide_div_mod_eq, Nat.testBit_eq_decide_div_mod_eq]
  rfl

/-- **A row begins with its index and its ID.** -/
theorem words_row (index : Nat) (a : Association) :
    (words (row index a).toList).take 2
      = [(decimal index).toList, (decimal a.assid.toNat).toList] := by
  have hrow : ∃ rest, (row index a).toList
      = (padLeft 3 (decimal index)).toList
        ++ ' ' :: ((padLeft 5 (decimal a.assid.toNat)).toList
          ++ ' ' :: rest) := by
    have hone : " ".toList = [' '] := rfl
    have htwo : "  ".toList = [' ', ' '] := rfl
    unfold row
    simp only [String.toList_append, List.append_assoc, hone, htwo,
      List.cons_append, List.nil_append]
    exact ⟨_, rfl⟩
  obtain ⟨rest, hrest⟩ := hrow
  rw [hrest, words_padLeft_decimal, words_padLeft_decimal]
  rfl

end Associations

namespace Coercion

variable {κ : Type} [Surroundings κ] {k : κ} {raw : String}
variable {body : List Char} {n : Nat}

/-- **An index into a list that has entries** is looked up in it, and the
surroundings stay as they are. -/
theorem coerce_index (hraw : raw.toList = '&' :: body)
    (hn : IsNumeral UInt64.size n body)
    (hlisted : Surroundings.listLength k ≠ 0) :
    coerce .unsigned raw k =
      (match select n k with
        | .ok assid => .ok (.unsigned assid.toUInt64)
        | .error fault => .error (.unknownAssociation raw fault), k) := by
  have hsame : ensureAssociations k = k := if_neg hlisted
  rcases coerce_unsigned_cases raw k with ⟨body', hraw', heq⟩ | ⟨hraw', -⟩
  · obtain ⟨-, rfl⟩ := List.cons.inj (hraw.symm.trans hraw')
    rw [heq, association_of_numeral hn, hsame]
    cases select n k <;> rfl
  · exact absurd (by rw [hraw]; rfl) hraw'

/-- **The index zero selects nothing**, whatever the list is and whether it
has to be read first. -/
theorem coerce_index_zero (hraw : raw.toList = '&' :: body)
    (hn : IsNumeral UInt64.size 0 body) :
    ∃ fault, (coerce .unsigned raw k).1
      = .error (.unknownAssociation raw fault) := by
  have hselect : ∀ k' : κ, ∃ fault, select 0 k' = .error fault := by
    intro k'
    by_cases hlength : Surroundings.listLength k' = 0
    · exact ⟨_, select_of_empty 0 hlength⟩
    · refine ⟨.outOfRange, ?_⟩
      unfold select
      dsimp only
      rw [if_neg hlength, if_pos rfl]
  rcases coerce_unsigned_cases raw k with ⟨body', hraw', heq⟩ | ⟨hraw', -⟩
  · obtain ⟨-, rfl⟩ := List.cons.inj (hraw.symm.trans hraw')
    obtain ⟨fault, hfault⟩ := hselect (ensureAssociations k)
    rw [heq, association_of_numeral hn, hfault]
    exact ⟨fault, rfl⟩
  · exact absurd (by rw [hraw]; rfl) hraw'

/-- An index that is typed is a numeral behind a `&`. -/
theorem toList_index (n : Nat) :
    ("&" ++ decimal n).toList = '&' :: (decimal n).toList := by
  rw [String.toList_append]
  rfl

end Coercion

namespace Run

variable {τ ω : Type} [Transport τ] [Workspace ω] {r : Run τ ω}
variable {list : List Association} {raw : String} {body : List Char}
variable {n : Nat}

/-- **An index selects** the entry at its place, and beyond the end the
last one. The run stays as it is, so the server is not asked. -/
theorem coerce_index (hlist : r.client.state.associations = list)
    (hraw : raw.toList = '&' :: body) (hn : IsNumeral UInt64.size n body)
    (hpos : 1 ≤ n) {a : Association}
    (ha : list[min n list.length - 1]? = some a) :
    Coercion.coerce .unsigned raw r
      = (.ok (.unsigned a.assid.toUInt64), r) := by
  subst hlist
  have hlisted : Surroundings.listLength r ≠ 0 := by
    obtain ⟨hlt, -⟩ := List.getElem?_eq_some_iff.mp ha
    exact Nat.ne_of_gt (Nat.zero_lt_of_lt hlt)
  have hselect : Coercion.select n r = .ok a.assid := by
    unfold Coercion.select
    dsimp only
    rw [if_neg hlisted, if_neg (Nat.ne_of_gt hpos)]
    rw [show Surroundings.listEntry? r (min n (Surroundings.listLength r) - 1)
      = some a.assid from congrArg (Option.map (·.assid)) ha]
  rw [Coercion.coerce_index hraw hn hlisted, hselect]

end Run

namespace Associations

/-- **The index column of a table**: what it shows of a list of
associations, and what the indices select while the list is the same. -/
structure IndexColumn (all : Bool) (list : List Association) : Prop where
  /-- Below the heading there is a row for each entry that is shown. -/
  table : table all list
    = heading ++ (shown all list).map fun x => row x.2 x.1
  /-- All entries are shown in order, or those whose status has the bit for
  configured or that for reachable. -/
  entries : (shown all list).map Prod.fst
    = if all then list
      else list.filter fun a =>
        a.status.toNat.testBit 15 || a.status.toNat.testBit 12
  /-- A row begins with its index, which counts the entries of the whole
  list from one on, and with the ID of the association there. -/
  row : ∀ x ∈ shown all list, 1 ≤ x.2 ∧ x.2 ≤ list.length
    ∧ list[x.2 - 1]? = some x.1
    ∧ (words (row x.2 x.1).toList).take 2
      = [(decimal x.2).toList, (decimal x.1.assid.toNat).toList]
  /-- As an argument, the index of a row selects the ID of the row. The
  server is not asked, for the run stays as it is. -/
  selects : ∀ {τ ω : Type} [Transport τ] [Workspace ω] (r : Run τ ω),
    r.client.state.associations = list → ∀ x ∈ shown all list,
    Coercion.coerce .unsigned ("&" ++ decimal x.2) r
      = (.ok (.unsigned x.1.assid.toUInt64), r)
  /-- An index beyond the end selects the last association. -/
  beyond : ∀ {τ ω : Type} [Transport τ] [Workspace ω] (r : Run τ ω),
    r.client.state.associations = list → ∀ raw body n,
    raw.toList = '&' :: body → IsNumeral UInt64.size n body →
    list.length < n → ∃ a, list.getLast? = some a
      ∧ Coercion.coerce .unsigned raw r
        = (.ok (.unsigned a.assid.toUInt64), r)
  /-- The index zero selects nothing. -/
  zero : ∀ {τ ω : Type} [Transport τ] [Workspace ω] (r : Run τ ω),
    r.client.state.associations = list → ∀ raw body,
    raw.toList = '&' :: body → IsNumeral UInt64.size 0 body →
    Coercion.coerce .unsigned raw r
      = (.error (.unknownAssociation raw .outOfRange), r)

/-- **The index column is right** for every list with entries, as long as
each of them has an index that can be typed. -/
theorem indexColumn (all : Bool) {list : List Association} (hne : list ≠ [])
    (hlength : list.length < UInt64.size) : IndexColumn all list where
  table := table_of_ne_nil all hne
  entries := by
    rw [map_shown]
    cases all with
    | true => exact List.filter_eq_self.mpr fun _ _ => rfl
    | false => exact List.filter_congr fun a _ => isNotable_eq a
  row x hx := by
    obtain ⟨hpos, hentry, -⟩ := mem_shown_iff.mp hx
    obtain ⟨hlt, -⟩ := List.getElem?_eq_some_iff.mp hentry
    exact ⟨hpos, by omega, hentry, words_row x.2 x.1⟩
  selects r hlist x hx := by
    obtain ⟨hpos, hentry, -⟩ := mem_shown_iff.mp hx
    obtain ⟨hlt, -⟩ := List.getElem?_eq_some_iff.mp hentry
    have hnumeral : IsNumeral UInt64.size x.2 (decimal x.2).toList :=
      readUnsigned?_eq_some_iff.mp (readUnsigned?_decimal (by omega))
    refine Run.coerce_index hlist (Coercion.toList_index x.2) hnumeral hpos ?_
    rwa [Nat.min_eq_left (by omega)]
  beyond r hlist raw body n hraw hn hlt := by
    refine ⟨list.getLast hne, List.getLast?_eq_some_getLast hne,
      Run.coerce_index hlist hraw hn (by omega) ?_⟩
    rw [Nat.min_eq_right (Nat.le_of_lt hlt), ← List.getLast?_eq_getElem?]
    exact List.getLast?_eq_some_getLast hne
  zero r hlist raw body hraw hn := by
    have hlisted : Surroundings.listLength r ≠ 0 := by
      show r.client.state.associations.length ≠ 0
      rw [hlist]
      exact Nat.ne_of_gt (List.length_pos_iff.mpr hne)
    have hselect : Coercion.select 0 r = .error .outOfRange := by
      unfold Coercion.select
      dsimp only
      rw [if_neg hlisted, if_pos rfl]
    rw [Coercion.coerce_index hraw hn hlisted, hselect]

end Associations

end NtpQuery
