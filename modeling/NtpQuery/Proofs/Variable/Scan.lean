import NtpQuery.Proofs.Variable.RoundTrip

/-!
# A variable list is read entry by entry

`Variable.Scans` says how a text falls into entries, without saying how
they are found: between them stand commas and white space, a name goes up
to an equals sign or a comma, and a value goes up to a comma, or up to its
closing quote if it opens with one. Every text falls into entries in one
way, and the variables of a text are its entries in order, but for those
with an empty name.

What an entry is depends on the text behind it at two points only. An entry
that does not end with a closing quote ends at a comma or at the end of the
text, and a quote that is not closed leaves nothing behind it. So a text
whose quotes are all closed can be followed by a comma and any other text,
and the two are read as if each stood alone (`Variable.Scans.append`).
-/

namespace NtpQuery

namespace Variable

open Text

/-- Whether a text is at an end: nothing is left, or a comma is next. -/
def AtEnd (s : List Char) : Prop :=
  ∀ c ∈ s.head?, c = ','

instance : DecidablePred AtEnd := fun s =>
  Option.decidableForallMem s.head?

theorem AtEnd.append_comma {s : List Char} (h : AtEnd s)
    (t : List Char) : AtEnd (s ++ ',' :: t) := by
  cases s with
  | nil => exact fun c hc => (Option.some.inj hc).symm
  | cons d s => exact h

/-! ## Values -/

/-- **A value as it stands in a text.** -/
inductive Value where
  /-- It has no quote in front. -/
  | plain (text : List Char)
  /-- It stands in quotes. -/
  | quoted (inner : List Char)
  /-- It opens with a quote that is not closed. -/
  | unclosed (inner : List Char)
  deriving DecidableEq

namespace Value

/-- The characters of a value, with its quotes. -/
def text : Value → List Char
  | plain text => text
  | quoted inner => '"' :: inner ++ ['"']
  | unclosed inner => '"' :: inner

/-- Whether a quote that opens the value is closed. -/
def closed : Value → Bool
  | unclosed _ => false
  | _ => true

/-- **Where a value may stand**, by the text behind it. -/
def Fits (rest : List Char) : Value → Prop
  | plain text => ',' ∉ text
    ∧ (∀ c ∈ text.head?, isWhite c = false ∧ c ≠ '"') ∧ AtEnd rest
  | quoted inner => '"' ∉ inner
  | unclosed inner => '"' ∉ inner ∧ rest = []

instance (rest : List Char) : DecidablePred (Fits rest)
  | plain text =>
    have : Decidable (∀ c ∈ text.head?, isWhite c = false ∧ c ≠ '"') :=
      Option.decidableForallMem text.head?
    inferInstanceAs (Decidable (',' ∉ text
      ∧ (∀ c ∈ text.head?, isWhite c = false ∧ c ≠ '"') ∧ AtEnd rest))
  | quoted inner => inferInstanceAs (Decidable ('"' ∉ inner))
  | unclosed inner =>
    inferInstanceAs (Decidable ('"' ∉ inner ∧ rest = []))

variable {v w : Value} {rest : List Char}

/-- **A value is split off whole**, however many commas its quotes hold. -/
theorem Fits.splitValue (h : v.Fits rest) :
    splitValue (v.text ++ rest) = (v.text, rest) := by
  cases v with
  | plain text =>
    obtain ⟨hcomma, hfirst, hrest⟩ := h
    have hquote : (text ++ rest).head? ≠ some '"' := by
      cases text with
      | nil => exact fun hc => absurd (hrest _ hc) (by decide)
      | cons c text => exact fun hc => (hfirst _ hc).2 rfl
    obtain ⟨htake, hdrop⟩ := span_append (p := (· != ',')) (l := text)
      (m := rest) (fun c hc => bne_iff_ne.mpr fun heq => hcomma (heq ▸ hc))
      (fun c hc => bne_eq_false_iff_eq.mpr (hrest c hc))
    show Variable.splitValue (text ++ rest) = (text, rest)
    rw [splitValue_plain hquote, htake, hdrop]
  | quoted inner => exact splitValue_quoted h rest
  | unclosed inner =>
    obtain ⟨hquote, rfl⟩ := h
    rw [List.append_nil]
    exact splitValue_unclosed hquote

/-- Blanks in front of a value do not reach into it. -/
theorem Fits.first (h : v.Fits rest) :
    ∀ c ∈ (v.text ++ rest).head?, isWhite c = false := by
  intro c hc
  cases v with
  | plain text =>
    obtain ⟨-, hfirst, hrest⟩ := h
    cases text with
    | nil =>
      rw [hrest c hc]
      decide
    | cons d text => exact (hfirst c hc).1
  | quoted inner => exact Option.some.inj hc ▸ isWhite_quote
  | unclosed inner => exact Option.some.inj hc ▸ isWhite_quote

/-- A value that can be followed by a comma can be followed by anything
behind that. -/
theorem Fits.append_comma (h : v.Fits rest) (hclosed : v.closed = true)
    (t : List Char) : v.Fits (rest ++ ',' :: t) := by
  cases v with
  | plain text => exact ⟨h.1, h.2.1, h.2.2.append_comma t⟩
  | quoted inner => exact h
  | unclosed inner => exact absurd hclosed Bool.false_ne_true

/-- **A value is known by its characters.** -/
theorem Fits.eq_of_text (hv : v.Fits rest) (hw : w.Fits rest)
    (h : v.text = w.text) : v = w := by
  have hplain : ∀ text inner : List Char, (plain text).Fits rest →
      text ≠ '"' :: inner := by
    rintro _ inner ⟨-, hfirst, -⟩ rfl
    exact (hfirst '"' rfl).2 rfl
  have hopen : ∀ inner more : List Char, (unclosed inner).Fits rest →
      inner ≠ more ++ ['"'] := by
    rintro _ more ⟨hquote, -⟩ rfl
    exact hquote (List.mem_append_right more (List.mem_singleton.mpr rfl))
  cases v with
  | plain text =>
    cases w with
    | plain text' => exact congrArg plain h
    | quoted inner => exact absurd h (hplain text _ hv)
    | unclosed inner => exact absurd h (hplain text _ hv)
  | quoted inner =>
    cases w with
    | plain text => exact absurd h.symm (hplain text _ hw)
    | quoted inner' =>
      exact congrArg quoted (List.append_cancel_right (List.cons.inj h).2)
    | unclosed inner' =>
      exact absurd (List.cons.inj h).2.symm (hopen inner' inner hw)
  | unclosed inner =>
    cases w with
    | plain text => exact absurd h.symm (hplain text _ hw)
    | quoted inner' =>
      exact absurd (List.cons.inj h).2 (hopen inner inner' hv)
    | unclosed inner' => exact congrArg unclosed (List.cons.inj h).2

/-- **There is a value in front of every text** that starts with no white
space. -/
theorem exists_fits {s : List Char}
    (hs : ∀ c ∈ s.head?, isWhite c = false) :
    ∃ v : Value, v.text ++ (Variable.splitValue s).2 = s
      ∧ v.Fits (Variable.splitValue s).2 := by
  fun_cases Variable.splitValue s with
  | case1 body hbody =>
    refine ⟨unclosed body, List.append_nil _, fun hmem => ?_, rfl⟩
    exact absurd (List.dropWhile_eq_nil_iff.mp hbody '"' hmem) (by decide)
  | case2 body quote rest hbody =>
    obtain rfl : quote = '"' := by
      have h := List.head?_dropWhile_not (· != '"') body
      rw [hbody] at h
      exact bne_eq_false_iff_eq.mp h
    have hjoin := List.takeWhile_append_dropWhile (p := (· != '"')) (l := body)
    rw [hbody] at hjoin
    refine ⟨quoted (body.takeWhile (· != '"')), ?_, fun hmem => ?_⟩
    · show '"' :: (body.takeWhile (· != '"') ++ ['"']) ++ rest = '"' :: body
      rw [List.cons_append, List.append_assoc, List.singleton_append, hjoin]
    · exact absurd (List.mem_takeWhile_imp hmem) (by decide)
  | case3 _ hno =>
    refine ⟨plain (s.takeWhile (· != ',')),
      List.takeWhile_append_dropWhile, fun hmem => ?_, fun c hc => ?_,
      fun c hc => ?_⟩
    · exact absurd (List.mem_takeWhile_imp hmem) (by decide)
    · have hhead : s.head? = some c := by
        obtain ⟨more, hmore⟩ := List.takeWhile_prefix (l := s) (· != ',')
        rw [← hmore, List.head?_append, Option.mem_def.mp hc]
        rfl
      refine ⟨hs c hhead, ?_⟩
      rintro rfl
      obtain ⟨body, hbody⟩ := List.head?_eq_some_iff.mp hhead
      exact hno body hbody
    · have h := List.head?_dropWhile_not (· != ',') s
      rw [Option.mem_def.mp hc] at h
      exact bne_eq_false_iff_eq.mp h

end Value

/-! ## Entries -/

/-- **An entry as it stands in a text**: a name, and behind an equals sign
white space and a value, if there is one. -/
structure Entry where
  /-- The characters up to the equals sign or the end. -/
  name : List Char
  /-- The white space behind the equals sign, and the value. -/
  value? : Option (List Char × Value)
  deriving DecidableEq

namespace Entry

/-- The characters of what follows the name. -/
def behind (e : Entry) : List Char :=
  match e.value? with
  | none => []
  | some (blank, v) => '=' :: (blank ++ v.text)

/-- The characters of an entry. -/
def text (e : Entry) : List Char :=
  e.name ++ e.behind

/-- **The variable of an entry.** An entry with an empty name has none. -/
def reading? (e : Entry) : Option Variable :=
  if (trim e.name).isEmpty then none
  else some ⟨String.ofList (trim e.name),
    String.ofList (trim (e.value?.elim [] (·.2.text)))⟩

/-- Whether a quote that opens the value is closed. -/
def Closed (e : Entry) : Prop :=
  ∀ p ∈ e.value?, p.2.closed = true

instance : DecidablePred Closed := fun e =>
  inferInstanceAs (Decidable (∀ p ∈ e.value?, p.2.closed = true))

/-- Where what follows the name may stand. -/
def FitsBehind (e : Entry) (rest : List Char) : Prop :=
  match e.value? with
  | none => AtEnd rest
  | some (blank, v) => (∀ c ∈ blank, isWhite c = true) ∧ v.Fits rest

/-- **Where an entry may stand**, by the text behind it. -/
structure Fits (e : Entry) (rest : List Char) : Prop where
  /-- The name goes no further than its first equals sign or comma. -/
  name : ∀ c ∈ e.name, endsName c = false
  /-- The entry starts with a character that no entry is separated by. -/
  first : ∃ c ∈ e.text.head?, isGap c = false
  /-- What follows the name fits. -/
  behind : e.FitsBehind rest

instance (rest : List Char) : DecidablePred (FitsBehind · rest)
  | ⟨_, none⟩ => inferInstanceAs (Decidable (AtEnd rest))
  | ⟨_, some (blank, v)⟩ =>
    have : Decidable (∀ c ∈ blank, isWhite c = true) :=
      List.decidableBAll _ blank
    inferInstanceAs
      (Decidable ((∀ c ∈ blank, isWhite c = true) ∧ v.Fits rest))

instance (e : Entry) (rest : List Char) : Decidable (e.Fits rest) :=
  have : Decidable (∀ c ∈ e.name, endsName c = false) :=
    List.decidableBAll _ e.name
  decidable_of_iff ((∀ c ∈ e.name, endsName c = false)
      ∧ (e.text.head?.any (! isGap ·)) = true ∧ e.FitsBehind rest)
    (by
      simp only [Option.any_eq_true, Bool.not_eq_true']
      exact ⟨fun ⟨hname, hfirst, hbehind⟩ => ⟨hname, hfirst, hbehind⟩,
        fun h => ⟨h.name, h.first, h.behind⟩⟩)

variable {e f : Entry} {rest : List Char}

/-- What follows the name is split off whole. -/
theorem FitsBehind.splitRest (h : e.FitsBehind rest) :
    splitRest (e.behind ++ rest) = (e.value?.elim [] (·.2.text), rest) := by
  obtain ⟨name, value?⟩ := e
  cases value? with
  | none =>
    show Variable.splitRest rest = ([], rest)
    rw [Variable.splitRest]
    rintro after rfl
    exact absurd (h '=' rfl) (by decide)
  | some p =>
    obtain ⟨blank, v⟩ := p
    obtain ⟨hblank, hv⟩ := h
    have hstart : trimStart (blank ++ (v.text ++ rest)) = v.text ++ rest :=
      (span_append hblank hv.first).2
    show splitValue (trimStart (blank ++ v.text ++ rest)) = (v.text, rest)
    rw [List.append_assoc, hstart, hv.splitValue]

/-- A name ends where the rest of its entry starts. -/
theorem FitsBehind.head_endsName (h : e.FitsBehind rest) :
    ∀ c ∈ (e.behind ++ rest).head?, endsName c = true := by
  obtain ⟨name, value?⟩ := e
  cases value? with
  | none =>
    intro c hc
    rw [h c hc]
    decide
  | some p => exact fun c hc => Option.some.inj hc ▸ by decide

theorem FitsBehind.append_comma (h : e.FitsBehind rest)
    (hclosed : e.Closed) (t : List Char) :
    e.FitsBehind (rest ++ ',' :: t) := by
  obtain ⟨name, value?⟩ := e
  cases value? with
  | none => exact AtEnd.append_comma h t
  | some p => exact ⟨h.1, h.2.append_comma (hclosed p rfl) t⟩

/-- **A name is split off** at its first equals sign or comma. -/
theorem Fits.span (h : e.Fits rest) :
    (e.text ++ rest).takeWhile (! endsName ·) = e.name
      ∧ (e.text ++ rest).dropWhile (! endsName ·) = e.behind ++ rest := by
  rw [text, List.append_assoc]
  refine span_append (fun c hc => ?_) fun c hc => ?_
  · rw [h.name c hc]
    rfl
  · rw [h.behind.head_endsName c hc]
    rfl

/-- **Only an empty name** is trimmed to nothing. -/
theorem Fits.trim_name_eq_nil (h : e.Fits rest) :
    trim e.name = [] ↔ e.name = [] := by
  refine ⟨fun hnil => ?_, fun hnil => by rw [hnil]; rfl⟩
  obtain ⟨c, hc, hgap⟩ := h.first
  have hwhite : isWhite c = false := (Bool.or_eq_false_iff.mp hgap).2
  cases hname : e.name with
  | nil => rfl
  | cons d name =>
    rw [text, hname] at hc
    obtain rfl : d = c := Option.some.inj hc
    have hall := white_of_trim_eq_nil hnil d
      (hname ▸ List.mem_cons_self)
    exact absurd (hwhite.symm.trans hall) Bool.false_ne_true

/-- **Only entries with an empty name** have no variable. -/
theorem Fits.reading?_eq_none (h : e.Fits rest) :
    e.reading? = none ↔ e.name = [] := by
  rw [← h.trim_name_eq_nil, ← List.isEmpty_iff, reading?]
  split
  next hnil => exact ⟨fun _ => hnil, fun _ => rfl⟩
  next hne => exact ⟨fun hnone => (nomatch hnone), fun h => absurd h hne⟩

/-- **An entry is split off whole.** -/
theorem Fits.splitEntry (h : e.Fits rest) :
    ∃ c tail, e.text ++ rest = c :: tail ∧ isGap c = false
      ∧ splitEntry c tail
        = ((trim e.name, trim (e.value?.elim [] (·.2.text))), rest) := by
  obtain ⟨c, hc, hgap⟩ := h.first
  obtain ⟨tail, htail⟩ := List.head?_eq_some_iff.mp hc
  obtain ⟨htake, hdrop⟩ := h.span
  rw [htail, List.cons_append] at htake hdrop
  refine ⟨c, tail ++ rest, by rw [htail]; rfl, hgap, ?_⟩
  rw [List.takeWhile_cons] at htake
  rw [List.dropWhile_cons] at hdrop
  by_cases heq : c = '='
  · subst heq
    rw [if_neg (by decide)] at htake hdrop
    rw [Variable.splitEntry, if_pos rfl, hdrop, h.behind.splitRest, ← htake]
    rfl
  · have hname : (! endsName c) = true := by
      have hcomma : c ≠ ',' := fun hc => absurd (hc ▸ hgap) (by decide)
      simp [endsName, heq, hcomma]
    rw [if_pos hname] at htake hdrop
    rw [Variable.splitEntry, if_neg heq, htake, hdrop, h.behind.splitRest]

/-- **One entry is read**: it gives its variable, if it has one, and
reading goes on behind it. -/
theorem Fits.parse (h : e.Fits rest) :
    parse (e.text ++ rest) = e.reading?.toList ++ parse rest := by
  obtain ⟨c, tail, htext, hgap, hsplit⟩ := h.splitEntry
  rw [htext, parse_entry hgap]
  dsimp only
  rw [hsplit, reading?]
  dsimp only
  split
  · rfl
  · rfl

/-- Before a comma an entry may stand as before the end. -/
theorem Fits.append_comma (h : e.Fits rest) (hclosed : e.Closed)
    (t : List Char) : e.Fits (rest ++ ',' :: t) :=
  ⟨h.name, h.first, h.behind.append_comma hclosed t⟩

/-- Behind every name stands a value, or nothing. -/
theorem exists_fitsBehind (name : List Char) {s : List Char}
    (hs : ∀ c ∈ s.head?, endsName c = true) :
    ∃ e : Entry, e.name = name ∧ e.behind ++ (Variable.splitRest s).2 = s
      ∧ e.FitsBehind (Variable.splitRest s).2 := by
  fun_cases Variable.splitRest s with
  | case1 after =>
    obtain ⟨v, htext, hv⟩ := Value.exists_fits (head_trimStart (s := after))
    refine ⟨⟨name, some (after.takeWhile isWhite, v)⟩, rfl, ?_,
      fun c hc => List.mem_takeWhile_imp hc, hv⟩
    show '=' :: (after.takeWhile isWhite ++ v.text) ++ _ = '=' :: after
    rw [List.cons_append, List.append_assoc, htext, trimStart,
      List.takeWhile_append_dropWhile]
  | case2 _ hno =>
    refine ⟨⟨name, none⟩, rfl, rfl, fun c hc => ?_⟩
    have hend := hs c hc
    rcases Bool.or_eq_true_iff.mp hend with heq | heq
    · obtain ⟨tail, htail⟩ := List.head?_eq_some_iff.mp hc
      exact absurd (beq_iff_eq.mp heq ▸ htail) (hno tail)
    · exact beq_iff_eq.mp heq

/-- **There is an entry in front of every text** that starts with no
separator. -/
theorem exists_fits {c : Char} (hc : isGap c = false)
    (tail : List Char) :
    ∃ e : Entry, e.text ++ (Variable.splitEntry c tail).2 = c :: tail
      ∧ e.Fits (Variable.splitEntry c tail).2 := by
  by_cases heq : c = '='
  · subst heq
    obtain ⟨e, hname, hjoin, hbehind⟩ :=
      exists_fitsBehind [] (s := '=' :: tail)
        fun c hc => Option.some.inj hc ▸ by decide
    have hsplit : (Variable.splitEntry '=' tail).2
        = (Variable.splitRest ('=' :: tail)).2 := by
      rw [Variable.splitEntry, if_pos rfl]
    rw [hsplit]
    have htext : e.text = e.behind := by
      rw [text, hname, List.nil_append]
    have hfirst : ∃ c ∈ e.text.head?, isGap c = false := by
      refine ⟨'=', ?_, by decide⟩
      rw [htext]
      obtain ⟨name, value?⟩ := e
      cases value? with
      | none =>
        -- the equals sign is not left over
        have hrest : (Variable.splitRest ('=' :: tail)).2 = '=' :: tail :=
          hjoin
        rw [hrest] at hbehind
        exact absurd (hbehind '=' rfl) (by decide)
      | some p => rfl
    exact ⟨e, by rw [htext, hjoin],
      fun c hc => absurd hc (hname ▸ List.not_mem_nil), hfirst, hbehind⟩
  · obtain ⟨e, hname, hjoin, hbehind⟩ :=
      exists_fitsBehind (c :: tail.takeWhile (! endsName ·))
        (s := tail.dropWhile (! endsName ·)) fun d hd => by
          have h := List.head?_dropWhile_not (! endsName ·) tail
          rw [Option.mem_def.mp hd] at h
          simpa using h
    have hsplit : (Variable.splitEntry c tail).2
        = (Variable.splitRest (tail.dropWhile (! endsName ·))).2 := by
      rw [Variable.splitEntry, if_neg heq]
    rw [hsplit]
    refine ⟨e, ?_, fun d hd => ?_, ⟨c, ?_, hc⟩, hbehind⟩
    · rw [text, List.append_assoc, hjoin, hname, List.cons_append,
        List.takeWhile_append_dropWhile]
    · rw [hname] at hd
      rcases List.mem_cons.mp hd with rfl | hd
      · have hcomma : d ≠ ',' := fun h => absurd (h ▸ hc) (by decide)
        simp [endsName, heq, hcomma]
      · simpa using List.mem_takeWhile_imp hd
    · rw [text, hname]
      rfl

/-- What follows a name is known by its characters. -/
theorem FitsBehind.value?_eq (he : e.FitsBehind rest)
    (hf : f.FitsBehind rest) (h : e.behind = f.behind) :
    e.value? = f.value? := by
  obtain ⟨name, value?⟩ := e
  obtain ⟨name', value?'⟩ := f
  cases value? with
  | none =>
    cases value?' with
    | none => rfl
    | some q => exact nomatch h
  | some p =>
    cases value?' with
    | none => exact nomatch h
    | some q =>
      obtain ⟨blank, v⟩ := p
      obtain ⟨blank', w⟩ := q
      have hjoin : blank ++ (v.text ++ rest) = blank' ++ (w.text ++ rest) := by
        rw [← List.append_assoc, ← List.append_assoc]
        exact congrArg (· ++ rest) (List.cons.inj h).2
      obtain ⟨htake, hdrop⟩ := span_append he.1 he.2.first
      obtain ⟨htake', hdrop'⟩ := span_append hf.1 hf.2.first
      rw [hjoin] at htake hdrop
      have hblank : blank = blank' := htake.symm.trans htake'
      have htext : v.text = w.text :=
        List.append_cancel_right (hdrop.symm.trans hdrop')
      rw [hblank, he.2.eq_of_text hf.2 htext]

/-- **One entry only stands in front of a text.** -/
theorem Fits.unique {s : List Char} (he : e.Fits rest) (hf : f.Fits s)
    (h : e.text ++ rest = f.text ++ s) : e = f ∧ rest = s := by
  obtain ⟨c, tail, htext, -, hsplit⟩ := he.splitEntry
  obtain ⟨d, tail', htext', -, hsplit'⟩ := hf.splitEntry
  obtain ⟨rfl, rfl⟩ := List.cons.inj (htext.symm.trans (h.trans htext'))
  obtain rfl : rest = s :=
    (congrArg Prod.snd hsplit).symm.trans (congrArg Prod.snd hsplit')
  have hname : e.name = f.name := by
    rw [← he.span.1, ← hf.span.1, h]
  have hbehind : e.behind = f.behind := by
    have hjoin : e.behind ++ rest = f.behind ++ rest := by
      rw [← he.span.2, ← hf.span.2, h]
    exact List.append_cancel_right hjoin
  have hvalue := he.behind.value?_eq hf.behind hbehind
  obtain ⟨name, value?⟩ := e
  obtain ⟨rfl, rfl⟩ : name = f.name ∧ value? = f.value? := ⟨hname, hvalue⟩
  exact ⟨rfl, rfl⟩

end Entry

/-! ## A text and its entries -/

/-- **How a text falls into entries.** -/
inductive Scans : List Char → List Entry → Prop where
  /-- An empty text has none. -/
  | nil : Scans [] []
  /-- Commas and white space separate them. -/
  | gap {c : Char} {s : List Char} {es : List Entry} :
    isGap c = true → Scans s es → Scans (c :: s) es
  /-- An entry stands in front of the others. -/
  | entry {e : Entry} {s : List Char} {es : List Entry} :
    e.Fits s → Scans s es → Scans (e.text ++ s) (e :: es)

namespace Scans

variable {s a b : List Char} {es fs : List Entry}

/-- **The variables of a text are those of its entries**, in order. -/
theorem parse (h : Scans s es) :
    parse s = es.filterMap Entry.reading? := by
  induction h with
  | nil => exact parse_nil
  | gap hc _ ih => rw [parse_gap hc, ih]
  | @entry e s es he _ ih =>
    rw [he.parse, ih, List.filterMap_cons]
    cases e.reading? with
    | none => rfl
    | some v => rfl

/-- Every entry fits where it stands. -/
theorem exists_fits (h : Scans s es) :
    ∀ e ∈ es, ∃ rest, e.Fits rest := by
  induction h with
  | nil => exact List.forall_mem_nil _
  | gap _ _ ih => exact ih
  | entry he _ ih => exact List.forall_mem_cons.mpr ⟨⟨_, he⟩, ih⟩

/-- **Two texts are read as if each stood alone**, with a comma between
them, if the quotes of the first are closed. -/
theorem append (ha : Scans a es) (hclosed : ∀ e ∈ es, e.Closed)
    (hb : Scans b fs) : Scans (a ++ ',' :: b) (es ++ fs) := by
  induction ha with
  | nil => exact .gap (by decide) hb
  | gap hc _ ih => exact .gap hc (ih hclosed)
  | @entry e s es he _ ih =>
    obtain ⟨hfirst, hrest⟩ := List.forall_mem_cons.mp hclosed
    rw [List.append_assoc]
    exact .entry (he.append_comma hfirst b) (ih hrest)

/-- A separator belongs to no entry. -/
theorem of_gap {c : Char} (hc : isGap c = true)
    (h : Scans (c :: s) es) : Scans s es := by
  generalize ht : c :: s = t at h
  cases h with
  | nil => exact nomatch ht
  | gap _ h => exact (List.cons.inj ht).2 ▸ h
  | entry he _ =>
    obtain ⟨d, tail, htext, hgap, -⟩ := he.splitEntry
    rw [(List.cons.inj (ht.trans htext)).1, hgap] at hc
    exact absurd hc Bool.false_ne_true

/-- An entry in front is the first. -/
theorem of_entry {e : Entry} (he : e.Fits s)
    (h : Scans (e.text ++ s) es) : ∃ fs, es = e :: fs ∧ Scans s fs := by
  obtain ⟨c, tail, htext, hgap, -⟩ := he.splitEntry
  generalize ht : e.text ++ s = t at h
  cases h with
  | nil => exact nomatch htext.symm.trans ht
  | gap hc _ =>
    rw [(List.cons.inj (htext.symm.trans ht)).1, hc] at hgap
    exact absurd hgap.symm Bool.false_ne_true
  | entry hf h =>
    obtain ⟨rfl, rfl⟩ := he.unique hf ht
    exact ⟨_, rfl, h⟩

/-- **A text falls into entries in one way.** -/
theorem unique (h : Scans s es) (h' : Scans s fs) : es = fs := by
  induction h generalizing fs with
  | nil =>
    generalize ht : ([] : List Char) = t at h'
    cases h' with
    | nil => rfl
    | gap _ _ => exact nomatch ht
    | entry hf _ =>
      obtain ⟨c, tail, htext, -, -⟩ := hf.splitEntry
      exact nomatch ht.trans htext
  | gap hc _ ih => exact ih (h'.of_gap hc)
  | entry he _ ih =>
    obtain ⟨fs, rfl, hfs⟩ := h'.of_entry he
    rw [ih hfs]

end Scans

/-- **Every text falls into entries**: reading comes to its end. -/
theorem exists_scans (s : List Char) : ∃ es, Scans s es := by
  induction s using parse_induction with
  | nil => exact ⟨[], .nil⟩
  | gap c s hc ih =>
    obtain ⟨es, hes⟩ := ih
    exact ⟨es, .gap hc hes⟩
  | entry c tail hc ih =>
    obtain ⟨es, hes⟩ := ih
    obtain ⟨e, htext, he⟩ := Entry.exists_fits hc tail
    exact ⟨e :: es, htext ▸ .entry he hes⟩

/-- **A closed quoted value is not split**, whatever it holds and whatever
stands behind it. -/
theorem parse_quoted {name blank inner : List Char} (hname : IsName name)
    (hblank : ∀ c ∈ blank, isWhite c = true) (hinner : '"' ∉ inner)
    (rest : List Char) :
    parse (name ++ '=' :: (blank ++ ('"' :: inner ++ ['"'])) ++ rest)
      = ⟨String.ofList name, String.ofList ('"' :: inner ++ ['"'])⟩
        :: parse rest := by
  have hfits : Entry.Fits ⟨name, some (blank, .quoted inner)⟩ rest := by
    refine ⟨fun c hc => ?_, ?_, hblank, hinner⟩
    · have hcomma : c ≠ ',' := fun h => hname.comma (h ▸ hc)
      have hequals : c ≠ '=' := fun h => hname.equals (h ▸ hc)
      simp [endsName, hcomma, hequals]
    · obtain ⟨c, more, rfl⟩ := List.exists_cons_of_ne_nil hname.ne_nil
      have hcomma : c ≠ ',' := fun h =>
        hname.comma (h ▸ List.mem_cons_self)
      have hwhite : isWhite c = false := hname.trimmed.first c rfl
      exact ⟨c, rfl, by simp [isGap, hcomma, hwhite]⟩
  have hvar : Entry.reading? ⟨name, some (blank, .quoted inner)⟩
      = some ⟨String.ofList name, String.ofList ('"' :: inner ++ ['"'])⟩ := by
    show (if (trim name).isEmpty then none else some (Variable.mk
      (String.ofList (trim name))
      (String.ofList (trim ('"' :: inner ++ ['"']))))) = _
    rw [hname.trimmed.trim_eq, (trimmed_quoted inner).trim_eq,
      if_neg (mt List.isEmpty_iff.mp hname.ne_nil)]
  have h := hfits.parse
  rw [hvar] at h
  exact h

/-- **One bad variable does not reach its neighbours.** Every text falls
into entries in exactly one way, and reading it gives the variables of its
entries, in order and as often as they stand there; only entries with an
empty name have none. A quoted value that is closed is not split. Two texts
with a comma between them give the variables of the first and then those of
the second, if no quote that opens a value of the first is left open. -/
theorem parse_append_comma :
    (∀ s, ∃! es, Scans s es)
      ∧ (∀ s es, Scans s es → parse s = es.filterMap Entry.reading?
        ∧ ∀ e ∈ es, e.reading? = none ↔ e.name = [])
      ∧ (∀ name blank inner rest : List Char, IsName name →
        (∀ c ∈ blank, isWhite c = true) → '"' ∉ inner →
        parse (name ++ '=' :: (blank ++ ('"' :: inner ++ ['"'])) ++ rest)
          = ⟨String.ofList name, String.ofList ('"' :: inner ++ ['"'])⟩
            :: parse rest)
      ∧ ∀ a es, Scans a es → (∀ e ∈ es, e.Closed) →
        ∀ b, parse (a ++ ',' :: b) = parse a ++ parse b := by
  refine ⟨fun s => ?_, fun s es h => ⟨h.parse, fun e he => ?_⟩,
    fun name blank inner rest hname hblank hinner =>
      parse_quoted hname hblank hinner rest, fun a es ha hclosed b => ?_⟩
  · obtain ⟨es, hes⟩ := exists_scans s
    exact ⟨es, hes, fun fs hfs => hfs.unique hes⟩
  · obtain ⟨rest, hfits⟩ := h.exists_fits e he
    exact hfits.reading?_eq_none
  · obtain ⟨fs, hb⟩ := exists_scans b
    rw [(ha.append hclosed hb).parse, ha.parse, hb.parse,
      List.filterMap_append]

/-- A comma in quotes, a name right behind a closing quote, and a value
without a name, before a list with a quote that is left open. -/
theorem parse_append_comma_mixed :
    let es : List Entry := [
      ⟨"v".toList, some ([], .quoted "1, 2".toList)⟩,
      ⟨"x ".toList, some ([' '], .plain "7".toList)⟩,
      ⟨[], some ([], .quoted "y,".toList)⟩]
    Scans "v=\"1, 2\"x = 7,=\"y,\"".toList es
      ∧ (∀ e ∈ es, e.Closed)
      ∧ parse "v=\"1, 2\"x = 7,=\"y,\",n,n=\"a, b".toList
        = [⟨"v", "\"1, 2\""⟩, ⟨"x", "7"⟩, ⟨"n", ""⟩, ⟨"n", "\"a, b"⟩] := by
  intro es
  obtain ⟨-, hparse, -, happend⟩ := parse_append_comma
  have ha : Scans "v=\"1, 2\"x = 7,=\"y,\"".toList es :=
    .entry (e := ⟨"v".toList, some ([], .quoted "1, 2".toList)⟩)
      (by decide)
      (.entry (e := ⟨"x ".toList, some ([' '], .plain "7".toList)⟩)
        (by decide) (.gap (by decide)
          (.entry (e := ⟨[], some ([], .quoted "y,".toList)⟩)
            (by decide) .nil)))
  have hb : Scans "n,n=\"a, b".toList
      [⟨"n".toList, none⟩, ⟨"n".toList, some ([], .unclosed "a, b".toList)⟩] :=
    .entry (e := ⟨"n".toList, none⟩) (by decide) (.gap (by decide)
      (.entry (e := ⟨"n".toList, some ([], .unclosed "a, b".toList)⟩)
        (by decide) .nil))
  have hclosed : ∀ e ∈ es, e.Closed := by decide
  refine ⟨ha, hclosed, ?_⟩
  have h := happend _ _ ha hclosed "n,n=\"a, b".toList
  rw [(hparse _ _ ha).1, (hparse _ _ hb).1] at h
  exact h

end Variable

end NtpQuery
