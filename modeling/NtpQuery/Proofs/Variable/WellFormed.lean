import Mathlib.Data.List.TakeWhile
import NtpQuery.Proofs.Text.Trim
import NtpQuery.Variable

/-!
# What a variable list can say

Reading a variable list refuses nothing, so the question is what comes out.
Names have no white space at their ends and none of the characters that
end a name. A value is empty, or plain, or stands in quotes; a quote that
is never closed takes in all that follows, so only the last variable can
have a value of that kind. `Variable.wellFormed_parse` says that every
text is read as such a list.

Reading goes by the front of a text: a character between entries is
skipped (`Variable.parse_gap`), and any other starts an entry
(`Variable.parse_entry`). Facts about all texts follow these two ways
(`Variable.parse_induction`).
-/

namespace NtpQuery

namespace Variable

open Text

/-- **The text of a name**: it is not empty, it holds no comma and no
equals sign, and there is no white space at its ends. -/
structure IsName (s : List Char) : Prop where
  /-- It is not empty. -/
  ne_nil : s ≠ []
  /-- No comma is in it. -/
  comma : ',' ∉ s
  /-- No equals sign is in it. -/
  equals : '=' ∉ s
  /-- There is no white space at its ends. -/
  trimmed : Trimmed s

instance : DecidablePred IsName := fun s =>
  decidable_of_iff (s ≠ [] ∧ ',' ∉ s ∧ '=' ∉ s
      ∧ s.head?.all (!isWhite ·) = true ∧ s.getLast?.all (!isWhite ·) = true)
    (by
      simp only [Option.all_eq_true, Bool.not_eq_true']
      exact ⟨fun ⟨hne, hcomma, hequals, hfirst, hlast⟩ =>
        ⟨hne, hcomma, hequals, hfirst, hlast⟩,
      fun h =>
        ⟨h.ne_nil, h.comma, h.equals, h.trimmed.first, h.trimmed.last⟩⟩)

/-- **The text of a value**, which may be that of the `last` variable. -/
inductive IsValue (last : Bool) : List Char → Prop where
  /-- There is no value. -/
  | empty : IsValue last []
  /-- A value without quotes around it holds no comma. -/
  | plain {s : List Char} : s ≠ [] → ',' ∉ s → Trimmed s →
    s.head? ≠ some '"' → IsValue last s
  /-- A value in quotes may hold anything but a quote. -/
  | quoted {inner : List Char} : '"' ∉ inner →
    IsValue last ('"' :: inner ++ ['"'])
  /-- A quote that is not closed goes on to the end of the list. -/
  | unclosed {inner : List Char} : last = true → '"' ∉ inner →
    (∀ c ∈ ('"' :: inner).getLast?, isWhite c = false) →
    IsValue last ('"' :: inner)

/-- **A well-formed list of variables.** -/
def WellFormed : List Variable → Prop
  | [] => True
  | v :: rest => IsName v.name.toList
    ∧ IsValue rest.isEmpty v.value.toList ∧ WellFormed rest

/-- What a value may be in the middle of a list it may be anywhere. -/
theorem IsValue.mono {last last' : Bool} {s : List Char}
    (h : IsValue last s) (hlast : last = true → last' = true) :
    IsValue last' s := by
  cases h with
  | empty => exact .empty
  | plain hne hcomma htrim hquote => exact .plain hne hcomma htrim hquote
  | quoted hinner => exact .quoted hinner
  | unclosed hl hinner hend => exact .unclosed (hlast hl) hinner hend

theorem isWhite_quote : isWhite '"' = false := by decide

/-- There is nothing to trim around quotes. -/
theorem trimmed_quoted (inner : List Char) :
    Trimmed ('"' :: inner ++ ['"']) where
  first c hc := Option.some.inj hc ▸ isWhite_quote
  last c hc := by
    rw [List.getLast?_concat] at hc
    exact Option.some.inj hc ▸ isWhite_quote

/-- A value starts with no white space. -/
theorem IsValue.first {last : Bool} {s : List Char} (h : IsValue last s) :
    ∀ c ∈ s.head?, isWhite c = false := by
  intro c hc
  cases h with
  | empty => exact nomatch hc
  | plain _ _ htrim _ => exact htrim.first c hc
  | quoted _ => exact Option.some.inj hc ▸ isWhite_quote
  | unclosed _ _ _ => exact Option.some.inj hc ▸ isWhite_quote

/-! ## Reading from the front -/

theorem parse_nil : parse [] = [] := by
  rw [parse, entries]
  rfl

/-- What stands between entries is skipped. -/
theorem parse_gap {c : Char} (hc : isGap c = true) (s : List Char) :
    parse (c :: s) = parse s := by
  have hdrop : (c :: s).dropWhile isGap = s.dropWhile isGap := by
    rw [List.dropWhile_cons, if_pos hc]
  unfold parse
  rw [entries, entries, hdrop]

/-- **Anything else starts an entry.** One with an empty name does not
count. -/
theorem parse_entry {c : Char} (hc : isGap c = false) (tail : List Char) :
    parse (c :: tail) =
      let entry := splitEntry c tail
      if entry.1.1.isEmpty then parse entry.2
      else ⟨String.ofList entry.1.1, String.ofList entry.1.2⟩
        :: parse entry.2 := by
  have hdrop : (c :: tail).dropWhile isGap = c :: tail := by
    rw [List.dropWhile_cons, hc, if_neg Bool.false_ne_true]
  unfold parse
  rw [entries, hdrop]
  dsimp only
  split
  · rfl
  · rfl

/-- **What is so of a text if it is so of what is left to read** is so of
every text. -/
theorem parse_induction {motive : List Char → Prop} (nil : motive [])
    (gap : ∀ c s, isGap c = true → motive s → motive (c :: s))
    (entry : ∀ c tail, isGap c = false → motive (splitEntry c tail).2 →
      motive (c :: tail)) (s : List Char) : motive s := by
  induction hn : s.length using Nat.strongRecOn generalizing s with
  | ind n ih =>
    subst hn
    cases s with
    | nil => exact nil
    | cons c tail =>
      cases hc : isGap c with
      | true => exact gap c tail hc (ih _ (Nat.lt_succ_self _) tail rfl)
      | false =>
        have hless : (splitEntry c tail).2.length < (c :: tail).length :=
          Nat.lt_succ_of_le (length_splitEntry_le c tail)
        exact entry c tail hc (ih _ hless _ rfl)

/-! ## What an entry holds -/

/-- **A text is split into a value** and the rest; a value that may only
be the last leaves no rest. -/
theorem isValue_splitValue {s : List Char}
    (hs : ∀ c ∈ s.head?, isWhite c = false) :
    IsValue (splitValue s).2.isEmpty (trim (splitValue s).1) := by
  fun_cases splitValue s with
  | case1 body hbody =>
    -- there is no closing quote, and what is trimmed stood behind the first
    have hinner : '"' ∉ body := fun hmem => by
      have hall := List.dropWhile_eq_nil_iff.mp hbody '"' hmem
      exact absurd hall (by decide)
    obtain ⟨white, hwhite⟩ := trim_isPrefix hs
    have htrim := trimmed_trim ('"' :: body)
    cases htext : trim ('"' :: body) with
    | nil => exact .empty
    | cons c inner =>
      rw [htext] at hwhite htrim
      obtain ⟨rfl, hrest⟩ := List.cons.inj hwhite
      refine .unclosed rfl (fun hmem => hinner ?_) htrim.last
      rw [← hrest]
      exact List.mem_append_left _ hmem
  | case2 body quote rest hbody =>
    obtain rfl : quote = '"' := by
      have h := List.head?_dropWhile_not (· != '"') body
      rw [hbody] at h
      exact bne_eq_false_iff_eq.mp h
    rw [(trimmed_quoted _).trim_eq]
    refine .quoted fun hmem => ?_
    exact absurd (List.mem_takeWhile_imp hmem) (by decide)
  | case3 _ hno =>
    obtain ⟨white, hwhite⟩ := List.takeWhile_prefix (l := s) (· != ',')
    have hfirst : ∀ c ∈ (s.takeWhile (· != ',')).head?, c ∈ s.head? := by
      intro c hc
      rw [← hwhite, List.head?_append, Option.mem_def.mp hc]
      rfl
    obtain ⟨more, hmore⟩ := trim_isPrefix fun c hc => hs c (hfirst c hc)
    cases htext : trim (s.takeWhile (· != ',')) with
    | nil => exact .empty
    | cons c value =>
      have hc : c ∈ s.head? := by
        refine hfirst c ?_
        rw [← hmore, htext]
        rfl
      refine .plain (List.cons_ne_nil _ _) (fun hmem => ?_) ?_ ?_
      · rw [← htext] at hmem
        exact absurd (List.mem_takeWhile_imp (mem_of_mem_trim hmem))
          (by decide)
      · rw [← htext]
        exact trimmed_trim _
      · intro hquote
        obtain rfl := Option.some.inj hquote
        obtain ⟨body, hbody⟩ := List.head?_eq_some_iff.mp hc
        exact hno body hbody

/-- **The value of an entry**; if it may only be the last, nothing is left
to read. -/
theorem isValue_splitRest (s : List Char) :
    IsValue (splitRest s).2.isEmpty (trim (splitRest s).1) := by
  fun_cases splitRest s with
  | case1 after => exact isValue_splitValue head_trimStart
  | case2 => exact .empty

/-- **The name of an entry**, if it is not empty. -/
theorem isName_splitEntry {c : Char} {tail : List Char}
    (hc : isGap c = false) (hne : (splitEntry c tail).1.1 ≠ []) :
    IsName (splitEntry c tail).1.1
      ∧ IsValue (splitEntry c tail).2.isEmpty (splitEntry c tail).1.2 := by
  unfold splitEntry at hne ⊢
  by_cases heq : c = '='
  · rw [if_pos heq] at hne
    exact absurd rfl hne
  · rw [if_neg heq] at hne ⊢
    have hcomma : c ≠ ',' := fun h => absurd (h ▸ hc) (by decide)
    have hplain : ∀ d ∈ c :: tail.takeWhile (! endsName ·),
        endsName d = false := by
      intro d hd
      rcases List.mem_cons.mp hd with rfl | hd
      · simp [endsName, heq, hcomma]
      · simpa using List.mem_takeWhile_imp hd
    refine ⟨⟨hne, fun hmem => ?_, fun hmem => ?_, trimmed_trim _⟩,
      isValue_splitRest _⟩
    · exact absurd (hplain _ (mem_of_mem_trim hmem)) (by decide)
    · exact absurd (hplain _ (mem_of_mem_trim hmem)) (by decide)

/-- **Every text is read as a well-formed list.** -/
theorem wellFormed_parse (s : List Char) : WellFormed (parse s) := by
  induction s using parse_induction with
  | nil =>
    rw [parse_nil]
    trivial
  | gap c s hc ih =>
    rw [parse_gap hc]
    exact ih
  | entry c tail hc ih =>
    rw [parse_entry hc]
    dsimp only
    split
    · exact ih
    next hne =>
      obtain ⟨hname, hvalue⟩ := isName_splitEntry hc
        (mt List.isEmpty_iff.mpr hne)
      refine ⟨?_, ?_, ih⟩
      · rw [String.toList_ofList]
        exact hname
      · rw [String.toList_ofList]
        -- with nothing left to read, no variable follows
        refine hvalue.mono fun hnil => ?_
        rw [List.isEmpty_iff.mp hnil, parse_nil]
        rfl

end Variable

end NtpQuery
