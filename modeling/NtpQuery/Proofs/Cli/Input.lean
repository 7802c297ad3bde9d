import NtpQuery.Cli.Console
import NtpQuery.Proofs.Text.Lines
import NtpQuery.Proofs.Text.Strict

/-!
# Command lines in an input

The program reads its input byte by byte up to a line end, takes a carriage
return off, reads the line as text and trims it. Here the lines are those
between line ends, each read and trimmed as it stands (`linesOf`). The two
differ in blank lines only, which ask for nothing.

Of the lines, those in front of the first that ends the program are heeded,
and those of them that are not blank are command lines (`commands`). An input
that gives command lines on lines of their own has these command lines, with
any white space around them (`Gives.commands_eq`).
-/

namespace NtpQuery.Cli

open Text

/-! ## Lines that are heeded -/

/-- **The lines of an input**, each without the white space at its ends. A
line need not be text. -/
def linesOf (stdin : Bytes) : List (Option (List Char)) :=
  (stdin.splitOn 10).map fun line => (decode? line).map trim

/-- A line that ends the program. -/
def EndsProgram (line : List Char) : Prop :=
  line = "quit".toList ∨ line = "exit".toList

instance : DecidablePred EndsProgram := fun line =>
  inferInstanceAs (Decidable (line = _ ∨ line = _))

/-- **The lines that are heeded**: those in front of the first that ends the
program. -/
def heeded (lines : List (Option (List Char))) : List (Option (List Char)) :=
  lines.takeWhile fun line => ! line.any fun text => EndsProgram text

/-- Lines that are text as far as they are heeded. -/
def Legible (lines : List (Option (List Char))) : Prop :=
  none ∉ heeded lines

/-- **The command lines** among lines: those that are heeded and not
blank. -/
def commands (lines : List (Option (List Char))) : List (List Char) :=
  (heeded lines).filterMap fun line => line.filter (· ≠ [])

@[simp] theorem commands_nil : commands [] = [] := rfl

section

variable {text : List Char} {lines : List (Option (List Char))}

/-- Nothing is heeded behind a line that ends the program. -/
theorem heeded_of_endsProgram (h : EndsProgram text) :
    heeded (some text :: lines) = [] := by
  unfold heeded
  rw [List.takeWhile_cons, Option.any_some, decide_eq_true h]
  rfl

/-- Any other text is heeded. -/
theorem heeded_cons (h : ¬ EndsProgram text) :
    heeded (some text :: lines) = some text :: heeded lines := by
  unfold heeded
  rw [List.takeWhile_cons, Option.any_some, decide_eq_false h]
  rfl

/-- So is a line that is no text. -/
theorem not_legible_none : ¬ Legible (none :: lines) :=
  not_not_intro List.mem_cons_self

theorem legible_cons (h : ¬ EndsProgram text) :
    Legible (some text :: lines) ↔ Legible lines := by
  unfold Legible
  rw [heeded_cons h, List.mem_cons, not_or]
  exact and_iff_right (Option.some_ne_none text).symm

theorem commands_of_endsProgram (h : EndsProgram text) :
    commands (some text :: lines) = [] := by
  unfold commands
  rw [heeded_of_endsProgram h]
  rfl

/-- A blank line is no command line. -/
theorem commands_blank : commands (some [] :: lines) = commands lines := by
  unfold commands
  rw [heeded_cons (by decide)]
  rfl

/-- A line that is heeded and not blank is one. -/
theorem commands_cons (hblank : text ≠ []) (hend : ¬ EndsProgram text) :
    commands (some text :: lines) = text :: commands lines := by
  unfold commands
  rw [heeded_cons hend]
  exact List.filterMap_cons_some
    (Option.filter_some_pos (decide_eq_true hblank))

end

/-- **What a line asks for**, if it has been read and trimmed already. -/
def Request.ofText : Option (List Char) → Request
  | none => unreadable
  | some text =>
    if text = [] then blank
    else if EndsProgram text then quit
    else command text

theorem Request.ofText_of_endsProgram {text : List Char}
    (h : EndsProgram text) : ofText (some text) = quit := by
  have hblank : text ≠ [] := by
    rintro rfl
    exact absurd h (by decide)
  exact (if_neg hblank).trans (if_pos h)

theorem Request.ofText_command {text : List Char} (hblank : text ≠ [])
    (hend : ¬ EndsProgram text) : ofText (some text) = command text :=
  (if_neg hblank).trans (if_neg hend)

/-- A line asks for what is left of it once it is trimmed. -/
theorem Request.ofLine_eq (line : Bytes) :
    ofLine line = ofText ((decode? line).map trim) := by
  unfold ofLine
  cases decode? line <;> rfl

/-- An empty line asks for nothing. -/
theorem Request.ofLine_nil : ofLine [] = blank := by
  rw [ofLine_eq, show decode? [] = some [] from decode?_encode []]
  rfl

/-- The carriage return in front of a line end makes no difference. -/
theorem Request.ofLine_withoutReturn (line : Bytes) :
    ofLine (withoutReturn line) = ofLine line := by
  unfold withoutReturn
  split_ifs with h
  · obtain ⟨front, rfl⟩ := List.getLast?_eq_some_iff.mp h
    have hwhite : ∀ c ∈ ['\r'], isWhite c = true :=
      List.all_eq_true.mp (by decide)
    rw [List.dropLast_concat, ofLine_eq, ofLine_eq, decode?_append_return,
      Option.map_map]
    congr 2
    exact funext fun text => (trim_append_white text hwhite).symm
  · rfl

/-- Where no line is ended, there is one line, or none. -/
theorem inputLines_of_line {line : Bytes} (h : 10 ∉ line) :
    inputLines line = if line.isEmpty then [] else [line] := by
  have hnone : line.dropWhile (· != 10) = [] :=
    List.dropWhile_eq_nil_iff.mpr fun b hb =>
      bne_iff_ne.mpr (ne_of_mem_of_not_mem hb h)
  unfold inputLines
  split
  next => rfl
  next heq => exact absurd (heq.symm.trans hnone) (List.cons_ne_nil _ _)

/-- **A line end ends a line.** -/
theorem inputLines_append_newline {line : Bytes} (h : 10 ∉ line)
    (rest : Bytes) :
    inputLines (line ++ 10 :: rest)
      = withoutReturn line :: inputLines rest := by
  have hline : ∀ b ∈ line, (b != 10) = true := fun b hb =>
    bne_iff_ne.mpr (ne_of_mem_of_not_mem hb h)
  have hdrop : (line ++ 10 :: rest).dropWhile (· != 10) = 10 :: rest :=
    List.dropWhile_append_of_pos hline
  have htake : (line ++ 10 :: rest).takeWhile (· != 10) = line := by
    rw [List.takeWhile_append_of_pos hline]
    exact List.append_nil line
  rw [inputLines]
  split
  next heq => exact absurd (hdrop.symm.trans heq) (List.cons_ne_nil _ _)
  next heq =>
    obtain ⟨-, rfl⟩ := List.cons.inj (hdrop.symm.trans heq)
    rw [htake]

/-! ## Inputs that give command lines -/

/-- **A command line**: a single line that is not blank and does not end the
program. -/
def IsCommand (line : String) : Prop :=
  OneLine line ∧ trim line.toList ≠ [] ∧ ¬ EndsProgram (trim line.toList)

instance : DecidablePred IsCommand := fun line =>
  inferInstanceAs (Decidable (OneLine line ∧ _ ∧ _))

/-- **A text that gives command lines**, each on a line of its own with any
white space around it; the last line need not be ended. -/
inductive Gives : List String → List Char → Prop
  /-- A single command line. -/
  | last {front back : List Char} (line : String)
    (hfront : ∀ c ∈ front, isWhite c = true)
    (hback : ∀ c ∈ back, isWhite c = true) :
    Gives [line] (front ++ (line.toList ++ back))
  /-- A command line in front of others. -/
  | cons {front back text : List Char} {lines : List String} (line : String)
    (hfront : ∀ c ∈ front, isWhite c = true)
    (hback : ∀ c ∈ back, isWhite c = true) (rest : Gives lines text) :
    Gives (line :: lines) (front ++ (line.toList ++ back) ++ '\n' :: text)

variable {lines : List String} {text : List Char}

/-- The trimmed lines of such a text are the command lines, trimmed. -/
theorem Gives.trimmedLines_eq (h : Gives lines text)
    (hlines : ∀ line ∈ lines, IsCommand line) :
    trimmedLines text = lines.map fun line => trim line.toList := by
  induction h with
  | last line hfront hback =>
    obtain ⟨hone, hne, -⟩ := hlines line List.mem_cons_self
    exact trimmedLines_padded hone hne hfront hback
  | cons line hfront hback rest ih =>
    obtain ⟨hone, hne, -⟩ := hlines line List.mem_cons_self
    rw [trimmedLines_append_newline,
      trimmedLines_padded hone hne hfront hback,
      ih fun other hother => hlines other (List.mem_cons_of_mem _ hother)]
    rfl

/-- Texts are heeded if none of them ends the program, and those that are
not blank are command lines. -/
theorem commands_map_some {texts : List (List Char)}
    (h : ∀ text ∈ texts, ¬ EndsProgram text) :
    heeded (texts.map some) = texts.map some
      ∧ commands (texts.map some) = texts.filter (· ≠ []) := by
  have hheeded : heeded (texts.map some) = texts.map some := by
    induction texts with
    | nil => rfl
    | cons text texts ih =>
      rw [List.map_cons, heeded_cons (h text List.mem_cons_self),
        ih (List.forall_mem_cons.mp h).2]
  refine ⟨hheeded, ?_⟩
  unfold commands
  rw [hheeded, List.filterMap_map]
  exact congrFun List.filterMap_eq_filter texts

/-- **The command lines of a text** that does not end the program are its
trimmed lines. -/
theorem commands_encode
    (h : ∀ line ∈ trimmedLines text, ¬ EndsProgram line) :
    Legible (linesOf (encode text))
      ∧ commands (linesOf (encode text)) = trimmedLines text := by
  have hread : linesOf (encode text)
      = ((text.splitOn '\n').map trim).map some := by
    unfold linesOf
    rw [splitOn_encode, List.map_map, List.map_map]
    exact List.map_congr_left fun line _ =>
      congrArg (Option.map trim) (decode?_encode line)
  have hall : ∀ line ∈ (text.splitOn '\n').map trim, ¬ EndsProgram line := by
    intro line hline
    by_cases hblank : line = []
    · subst hblank
      decide
    · exact h line (List.mem_filter.mpr ⟨hline, decide_eq_true hblank⟩)
  obtain ⟨hheeded, hcommands⟩ := commands_map_some hall
  rw [hread]
  refine ⟨?_, hcommands⟩
  unfold Legible
  rw [hheeded]
  exact fun hnone => nomatch (List.mem_map.mp hnone)

/-- **The command lines of an input that gives some** are these, without
the white space around them. -/
theorem Gives.commands_eq (h : Gives lines text)
    (hlines : ∀ line ∈ lines, IsCommand line) :
    Legible (linesOf (encode text))
      ∧ commands (linesOf (encode text))
        = lines.map fun line => trim line.toList := by
  have htrimmed := h.trimmedLines_eq hlines
  rw [← htrimmed]
  refine commands_encode fun line hline => ?_
  rw [htrimmed] at hline
  obtain ⟨command, hcommand, rfl⟩ := List.mem_map.mp hline
  exact (hlines command hcommand).2.2

end NtpQuery.Cli
