import NtpQuery.Command.Variables
import NtpQuery.Proofs.Variable.WellFormed

/-!
# Variable lists are read as they were written

Writing a list puts its variables one behind the other, with a comma
behind all but the last, and breaks the lines where the width says so.
Reading sees the commas and passes over the line breaks, so that the width
makes no difference.

The step is `Variable.parse_item`: a written variable is read as itself
from the front of a text, and reading goes on behind it. What stands there
is a comma, or the line end behind the last variable. The line end would
belong to a name or a plain value (`Variable.Closes.span`) or to an open
quote, but it is white and trimmed off.

Lists are read as they were written if they are well formed, and all that
is ever read is well formed (`Variable.parse_format`).
-/

namespace NtpQuery

/-- Where a run of characters ends, `takeWhile` and `dropWhile` part. -/
theorem span_append {α : Type} {p : α → Bool} {l m : List α}
    (hl : ∀ c ∈ l, p c = true) (hm : ∀ c ∈ m.head?, p c = false) :
    (l ++ m).takeWhile p = l ∧ (l ++ m).dropWhile p = m := by
  rw [List.takeWhile_append_of_pos hl, List.dropWhile_append_of_pos hl]
  cases m with
  | nil => exact ⟨List.append_nil l, rfl⟩
  | cons c m =>
    have hc : p c = false := hm c rfl
    rw [List.takeWhile_cons, List.dropWhile_cons, hc,
      if_neg Bool.false_ne_true, if_neg Bool.false_ne_true]
    exact ⟨List.append_nil l, rfl⟩

namespace Variable

open Text

/-- **What stands behind a written variable**: the line end behind the
last one, and else a comma. -/
def Closes : (last : Bool) → List Char → Prop
  | true, tail => tail = ['\n']
  | false, tail => tail.head? = some ','

theorem isWhite_newline : ∀ c ∈ ['\n'], isWhite c = true :=
  List.forall_mem_singleton.mpr (by decide)

theorem parse_newline : parse ['\n'] = parse [] :=
  parse_gap (by decide) []

section Front

variable {last : Bool} {value tail : List Char}

/-- **A run of characters** that ends before a comma ends there, or takes
the line end with it. Either way reading goes on as behind it. -/
theorem Closes.span (h : Closes last tail) {p : Char → Bool}
    (hcomma : p ',' = false) (hline : p '\n' = true) {run : List Char}
    (hrun : ∀ c ∈ run, p c = true) :
    ∃ white, (∀ c ∈ white, isWhite c = true)
      ∧ (run ++ tail).takeWhile p = run ++ white
      ∧ (∀ c ∈ ((run ++ tail).dropWhile p).head?, c = ',')
      ∧ parse ((run ++ tail).dropWhile p) = parse tail := by
  cases last with
  | false =>
    have hfirst : ∀ c ∈ tail.head?, c = ',' := by
      rw [show tail.head? = some ',' from h]
      exact fun c hc => (Option.some.inj hc).symm
    obtain ⟨htake, hdrop⟩ := span_append hrun
      fun c hc => hfirst c hc ▸ hcomma
    rw [htake, hdrop]
    exact ⟨[], List.forall_mem_nil _, (List.append_nil run).symm, hfirst,
      rfl⟩
  | true =>
    obtain rfl : tail = ['\n'] := h
    have hall : ∀ c ∈ run ++ ['\n'], p c = true := by
      intro c hc
      rcases List.mem_append.mp hc with hc | hc
      · exact hrun c hc
      · rwa [List.mem_singleton.mp hc]
    rw [List.takeWhile_eq_self_iff.mpr hall,
      List.dropWhile_eq_nil_iff.mpr hall]
    exact ⟨['\n'], isWhite_newline, rfl, fun c hc => absurd hc (by simp),
      parse_newline.symm⟩

/-- A plain value ends before a comma. -/
theorem splitValue_plain {s : List Char} (h : s.head? ≠ some '"') :
    splitValue s = (s.takeWhile (· != ','), s.dropWhile (· != ',')) := by
  rw [splitValue]
  rintro body rfl
  exact h rfl

/-- A value in quotes ends with its closing quote. -/
theorem splitValue_quoted {inner : List Char} (h : '"' ∉ inner)
    (tail : List Char) :
    splitValue ('"' :: inner ++ ['"'] ++ tail)
      = ('"' :: inner ++ ['"'], tail) := by
  have hrun : ∀ c ∈ inner, (c != '"') = true := by
    intro c hc
    exact bne_iff_ne.mpr fun heq => h (heq ▸ hc)
  obtain ⟨htake, hdrop⟩ :=
    span_append (m := '"' :: tail) hrun (by simp)
  rw [List.append_assoc]
  show splitValue ('"' :: (inner ++ '"' :: tail)) = _
  rw [splitValue, hdrop, htake]

/-- A quote that is not closed takes in everything. -/
theorem splitValue_unclosed {body : List Char} (h : '"' ∉ body) :
    splitValue ('"' :: body) = ('"' :: body, []) := by
  have hall : ∀ c ∈ body, (c != '"') = true := by
    intro c hc
    exact bne_iff_ne.mpr fun heq => h (heq ▸ hc)
  rw [splitValue, List.dropWhile_eq_nil_iff.mpr hall]

/-- **A written value is split off** but for white space, and reading goes
on behind it. -/
theorem splitValue_append (h : IsValue last value) (hne : value ≠ [])
    (htail : Closes last tail) :
    trim (splitValue (value ++ tail)).1 = value
      ∧ parse (splitValue (value ++ tail)).2 = parse tail := by
  cases h with
  | empty => exact absurd rfl hne
  | plain _ hcomma htrim hquote =>
    have hfirst : (value ++ tail).head? ≠ some '"' := by
      cases value with
      | nil => exact absurd rfl hne
      | cons c value => exact hquote
    obtain ⟨white, hwhite, htake, -, hdrop⟩ :=
      htail.span (p := (· != ',')) (by decide) (by decide) fun c hc =>
        bne_iff_ne.mpr fun heq => hcomma (heq ▸ hc)
    rw [splitValue_plain hfirst, htake, htrim.trim_append hwhite]
    exact ⟨rfl, hdrop⟩
  | @quoted inner hinner =>
    rw [splitValue_quoted hinner, (trimmed_quoted inner).trim_eq]
    exact ⟨rfl, rfl⟩
  | @unclosed inner hlast hinner hend =>
    subst hlast
    obtain rfl : tail = ['\n'] := htail
    have hopen : '"' ∉ inner ++ ['\n'] := by
      rw [List.mem_append, not_or]
      exact ⟨hinner, by decide⟩
    have htrim : Trimmed ('"' :: inner) :=
      ⟨fun c hc => Option.some.inj hc ▸ isWhite_quote, hend⟩
    rw [List.cons_append, splitValue_unclosed hopen, ← List.cons_append,
      htrim.trim_append isWhite_newline, parse_newline]
    exact ⟨rfl, rfl⟩

variable {c : Char} {name : List Char}

/-- An entry is split where its name ends. -/
theorem splitEntry_eq (hname : ∀ d ∈ c :: name, endsName d = false)
    (s : List Char) :
    splitEntry c s
      = ((trim (c :: s.takeWhile (! endsName ·)),
          trim (splitRest (s.dropWhile (! endsName ·))).1),
        (splitRest (s.dropWhile (! endsName ·))).2) := by
  have hc : c ≠ '=' := by
    rintro rfl
    exact absurd (hname '=' List.mem_cons_self) (by decide)
  rw [splitEntry, if_neg hc]

/-- **An entry without a value** is its name, and reading goes on behind
it. -/
theorem splitEntry_bare (hname : ∀ d ∈ c :: name, endsName d = false)
    (htrim : Trimmed (c :: name)) (htail : Closes last tail) :
    (splitEntry c (name ++ tail)).1 = (c :: name, [])
      ∧ parse (splitEntry c (name ++ tail)).2 = parse tail := by
  obtain ⟨white, hwhite, htake, hfirst, hdrop⟩ :=
    htail.span (p := (! endsName ·)) (by decide) (by decide) fun d hd => by
      rw [hname d (List.mem_cons_of_mem c hd)]
      rfl
  have hrest : splitRest ((name ++ tail).dropWhile (! endsName ·))
      = ([], (name ++ tail).dropWhile (! endsName ·)) := by
    rw [splitRest]
    intro after hafter
    rw [hafter] at hfirst
    exact absurd (hfirst '=' rfl) (by decide)
  rw [splitEntry_eq hname, hrest, htake, ← List.cons_append,
    htrim.trim_append hwhite]
  exact ⟨rfl, hdrop⟩

/-- **An entry with a value** is split at its equals sign. -/
theorem splitEntry_equals (hname : ∀ d ∈ c :: name, endsName d = false)
    (after : List Char) :
    splitEntry c (name ++ '=' :: after)
      = ((trim (c :: name), trim (splitValue (trimStart after)).1),
        (splitValue (trimStart after)).2) := by
  obtain ⟨htake, hdrop⟩ := span_append (p := (! endsName ·)) (l := name)
    (m := '=' :: after)
    (fun d hd => by simp [hname d (List.mem_cons_of_mem _ hd)])
    (by simp [endsName])
  rw [splitEntry_eq hname, htake, hdrop]
  rfl

end Front

/-! ## One variable, and a list of them -/

theorem toList_item (v : Variable) :
    v.item.toList = v.name.toList
      ++ if v.value.toList = [] then [] else '=' :: v.value.toList := by
  unfold item
  by_cases h : v.value.isEmpty = true
  · rw [if_pos h, if_pos (String.toList_eq_nil_iff.mpr
      (String.isEmpty_iff.mp h)), List.append_nil]
  · rw [if_neg h, if_neg fun hnil => h (String.isEmpty_iff.mpr
      (String.toList_eq_nil_iff.mp hnil)), String.toList_append,
      String.toList_append]
    exact List.append_assoc _ _ _

/-- **A written variable is read as itself**, and reading goes on behind
it. -/
theorem parse_item {v : Variable} {last : Bool} {tail : List Char}
    (hname : IsName v.name.toList) (hvalue : IsValue last v.value.toList)
    (htail : Closes last tail) :
    parse (v.item.toList ++ tail) = v :: parse tail := by
  obtain ⟨c, name, hc⟩ := List.exists_cons_of_ne_nil hname.ne_nil
  have hplain : ∀ d ∈ c :: name, endsName d = false := by
    intro d hd
    rw [← hc] at hd
    have hcomma : d ≠ ',' := fun h => hname.comma (h ▸ hd)
    have hequals : d ≠ '=' := fun h => hname.equals (h ▸ hd)
    simp [endsName, hcomma, hequals]
  have hgap : isGap c = false := by
    have hwhite : isWhite c = false := hname.trimmed.first c (by rw [hc]; rfl)
    have hcomma : c ≠ ',' := by
      rintro rfl
      exact hname.comma (by rw [hc]; exact List.mem_cons_self)
    simp [isGap, hcomma, hwhite]
  have htrim : Trimmed (c :: name) := hc ▸ hname.trimmed
  -- it is enough to know how the entry is split
  suffices hsplit : ∃ rest, v.item.toList ++ tail = c :: rest
      ∧ (splitEntry c rest).1 = (c :: name, v.value.toList)
      ∧ parse (splitEntry c rest).2 = parse tail by
    obtain ⟨rest, htext, hentry, hbehind⟩ := hsplit
    rw [htext, parse_entry hgap]
    dsimp only
    rw [hentry, hbehind, ← hc, if_neg (mt List.isEmpty_iff.mp hname.ne_nil),
      String.ofList_toList, String.ofList_toList]
  rw [toList_item, hc]
  by_cases hnil : v.value.toList = []
  · rw [if_pos hnil, List.append_nil, hnil]
    exact ⟨name ++ tail, rfl, splitEntry_bare hplain htrim htail⟩
  · rw [if_neg hnil]
    refine ⟨name ++ '=' :: (v.value.toList ++ tail), by simp, ?_⟩
    obtain ⟨hfront, hbehind⟩ := splitValue_append hvalue hnil htail
    have hstart : trimStart (v.value.toList ++ tail)
        = v.value.toList ++ tail := by
      obtain ⟨d, value, hd⟩ := List.exists_cons_of_ne_nil hnil
      rw [hd] at hvalue ⊢
      exact trimStart_of_head fun e he => hvalue.first e he
    rw [splitEntry_equals hplain, hstart, hfront, htrim.trim_eq]
    exact ⟨rfl, hbehind⟩

/-- What stands between entries is skipped, however much it is. -/
theorem parse_gaps {lead : List Char} (h : ∀ c ∈ lead, isGap c = true)
    (s : List Char) : parse (lead ++ s) = parse s := by
  induction lead with
  | nil => rfl
  | cons c lead ih =>
    rw [List.cons_append, parse_gap (h c List.mem_cons_self)]
    exact ih fun d hd => h d (List.mem_cons_of_mem _ hd)

/-- **A list is written variable by variable.** What comes before the first
depends on the width, but it is passed over in reading. -/
theorem toList_wrap_cons (width column : Nat) (v : Variable)
    (rest : List Variable) :
    ∃ lead column', (∀ c ∈ lead, isGap c = true)
      ∧ (wrap width column (v :: rest)).toList
        = lead ++ (v.item.toList ++ ((if rest.isEmpty then [] else [','])
          ++ (wrap width column' rest).toList)) := by
  have hitem : (v.itemBefore rest).toList
      = v.item.toList ++ if rest.isEmpty then [] else [','] := by
    unfold itemBefore
    by_cases h : rest.isEmpty = true
    · rw [if_pos h, if_pos h, List.append_nil]
    · rw [if_neg h, if_neg h, String.toList_append]
      rfl
  have hjoin : ∀ (lead : String) (column' : Nat),
      (lead ++ v.itemBefore rest ++ wrap width column' rest).toList
        = lead.toList ++ (v.item.toList
          ++ ((if rest.isEmpty then [] else [','])
            ++ (wrap width column' rest).toList)) := by
    intro lead column'
    rw [String.toList_append, String.toList_append, hitem,
      List.append_assoc, List.append_assoc]
  rw [wrap]
  split
  · rw [← String.empty_append (s := v.itemBefore rest)]
    exact ⟨[], _, List.forall_mem_nil _, hjoin "" _⟩
  · split
    · exact ⟨['\n'], _, List.forall_mem_singleton.mpr (by decide),
        hjoin "\n" _⟩
    · exact ⟨[' '], _, List.forall_mem_singleton.mpr (by decide),
        hjoin " " _⟩

/-- **A list that is written over lines is read as it was.** -/
theorem parse_wrap {vars : List Variable} (h : WellFormed vars)
    (width column : Nat) :
    parse ((wrap width column vars).toList ++ ['\n']) = vars := by
  induction vars generalizing column with
  | nil => exact parse_newline.trans parse_nil
  | cons v rest ih =>
    obtain ⟨hname, hvalue, hrest⟩ := h
    obtain ⟨lead, column', hlead, htext⟩ :=
      toList_wrap_cons width column v rest
    have hclose : Closes rest.isEmpty ((if rest.isEmpty then [] else [','])
        ++ (wrap width column' rest).toList ++ ['\n']) := by
      cases rest <;> rfl
    rw [htext, List.append_assoc, parse_gaps hlead, List.append_assoc,
      parse_item hname hvalue hclose]
    cases rest with
    | nil => exact congrArg (v :: ·) (parse_newline.trans parse_nil)
    | cons w rest =>
      exact congrArg (v :: ·) ((parse_gap (by decide) _).trans (ih hrest _))

/-- A line end behind nothing is not written, but it would make no
difference. -/
theorem parse_toList_format (width : Nat) (vars : List Variable) :
    parse (format width vars).toList
      = parse ((wrap width 0 vars).toList ++ ['\n']) := by
  unfold format
  dsimp only
  split
  next hempty =>
    rw [String.isEmpty_iff.mp hempty]
    exact parse_newline.symm
  · rw [String.toList_append]
    rfl

/-- **Variable lists are read as they were written.** Every text is read as
a well-formed list, and every well-formed list is read as it was once it
has been written, whatever the width. So what is shown of a response says
exactly what the response says. -/
theorem parse_format :
    (∀ text, WellFormed (parse text))
      ∧ (∀ vars, WellFormed vars → ∀ width,
        parse (format width vars).toList = vars)
      ∧ ∀ r : Response,
        parse (Variables.body false r).toList = parse r.text := by
  have hback : ∀ vars, WellFormed vars → ∀ width,
      parse (format width vars).toList = vars := fun vars h width =>
    (parse_toList_format width vars).trans (parse_wrap h width 0)
  exact ⟨wellFormed_parse, hback, fun r => hback _ (wellFormed_parse _) _⟩

/-- A value with a comma in its quotes, a name without a value, and a quote
that is not closed, in lines of twenty bytes. -/
theorem parse_format_three :
    let vars : List Variable := [⟨"version", "\"4.2, x\""⟩, ⟨"flag", ""⟩,
      ⟨"note", "\"open, end"⟩]
    WellFormed vars
      ∧ format 20 vars
        = "version=\"4.2, x\",\nflag,\nnote=\"open, end\n"
      ∧ parse (format 20 vars).toList = vars := by
  intro vars
  have h : WellFormed vars :=
    ⟨by decide, @IsValue.quoted _ "4.2, x".toList (by decide),
      by decide, .empty,
      by decide, @IsValue.unclosed _ "open, end".toList rfl (by decide)
        (fun c hc => by rw [← Option.some.inj hc]; decide), trivial⟩
  exact ⟨h, by decide, parse_format.2.1 vars h 20⟩

end Variable

end NtpQuery
