import NtpQuery.Text.Column

/-!
# What stands in a column

A line of a table is made of cells with a blank between them. At the left
of its column a text is followed by blanks, or cut if the column is too
narrow; at the right it stands behind blanks, or runs over. That is said
here of the characters of the line (`Column.Shows`, `Column.Line`), and
there is exactly one line that shows given texts (`Column.line_iff`).
-/

namespace NtpQuery.Text

/-- **A column of a table.** -/
inductive Column where
  /-- Texts stand at the left and do not leave the column. -/
  | left (width : Nat)
  /-- Texts stand at the right and may run over. -/
  | right (width : Nat)

namespace Column

/-- **The characters that show a text** in a column. -/
inductive Shows : Column → String → List Char → Prop
  /-- At the left, blanks follow a text that fits. -/
  | fits {width : Nat} {text : String} {blanks : List Char}
      (full : text.length + blanks.length = width)
      (blank : ∀ c ∈ blanks, c = ' ') :
      Shows (.left width) text (text.toList ++ blanks)
  /-- Of a text that does not fit, the front part is shown that does. -/
  | cut {width : Nat} {text : String} {front : List Char}
      (long : width < text.length) (front_part : front <+: text.toList)
      (full : front.length = width) : Shows (.left width) text front
  /-- At the right, blanks come before a text that fits. -/
  | behind {width : Nat} {text : String} {blanks : List Char}
      (full : blanks.length + text.length = width)
      (blank : ∀ c ∈ blanks, c = ' ') :
      Shows (.right width) text (blanks ++ text.toList)
  /-- A text that does not fit runs over. -/
  | overrun {width : Nat} {text : String} (long : width < text.length) :
      Shows (.right width) text text.toList

/-- **The characters that show several texts**, each in its column, with a
blank between two of them. -/
inductive Line : List (Column × String) → List Char → Prop
  /-- One text. -/
  | one {column : Column} {text : String} {cell : List Char}
      (shows : column.Shows text cell) : Line [(column, text)] cell
  /-- A text in front of others. -/
  | cons {column : Column} {text : String} {cell : List Char}
      {next : Column × String} {others : List (Column × String)}
      {line : List Char} (shows : column.Shows text cell)
      (rest : Line (next :: others) line) :
      Line ((column, text) :: next :: others) (cell ++ ' ' :: line)

/-- **A text set in a column.** -/
def set : Column → String → String
  | left width, text => padRight width (Text.cut width text)
  | right width, text => padLeft width text

theorem toList_set_left (width : Nat) (text : String) :
    (set (.left width) text).toList = text.toList.take width
      ++ List.replicate (width - text.length) ' ' := by
  have hcut : width - (Text.cut width text).length
      = width - text.length := by
    rw [Text.cut, String.length_ofList, List.length_take,
      String.length_toList]
    omega
  rw [set, padRight, hcut, String.toList_append, String.toList_ofList,
    Text.cut, String.toList_ofList]

theorem toList_set_right (width : Nat) (text : String) :
    (set (.right width) text).toList
      = List.replicate (width - text.length) ' ' ++ text.toList := by
  rw [set, padLeft, String.toList_append, String.toList_ofList]

/-- A text that is set in a column is shown there. -/
theorem shows_set (column : Column) (text : String) :
    column.Shows text (column.set text).toList := by
  cases column with
  | left width =>
    rw [toList_set_left]
    obtain hlong | hfits := Nat.lt_or_ge width text.length
    · rw [Nat.sub_eq_zero_of_le (Nat.le_of_lt hlong), List.replicate_zero,
        List.append_nil]
      refine .cut hlong (List.take_prefix _ _) ?_
      rw [List.length_take, String.length_toList]
      exact Nat.min_eq_left (Nat.le_of_lt hlong)
    · rw [List.take_of_length_le (by rwa [String.length_toList])]
      exact .fits (by rw [List.length_replicate]; omega)
        fun _ => List.eq_of_mem_replicate
  | right width =>
    rw [toList_set_right]
    obtain hlong | hfits := Nat.lt_or_ge width text.length
    · rw [Nat.sub_eq_zero_of_le (Nat.le_of_lt hlong)]
      exact .overrun hlong
    · exact .behind (by rw [List.length_replicate]; omega)
        fun _ => List.eq_of_mem_replicate

/-- **What shows a text** in a column is the text set in it. -/
theorem shows_iff {column : Column} {text : String} {cell : List Char} :
    column.Shows text cell ↔ cell = (column.set text).toList := by
  constructor
  · intro h
    cases h with
    | @fits width _ blanks full blank =>
      have hlength : blanks.length = width - text.length := by omega
      rw [toList_set_left, ← hlength, ← List.eq_replicate_of_mem blank,
        List.take_of_length_le (by rw [String.length_toList]; omega)]
    | cut long front full =>
      rw [toList_set_left, Nat.sub_eq_zero_of_le (Nat.le_of_lt long), ← full,
        ← List.prefix_iff_eq_take.mp front, List.replicate_zero,
        List.append_nil]
    | @behind width _ blanks full blank =>
      have hlength : blanks.length = width - text.length := by omega
      rw [toList_set_right, ← hlength, ← List.eq_replicate_of_mem blank]
    | overrun long =>
      rw [toList_set_right, Nat.sub_eq_zero_of_le (Nat.le_of_lt long),
        List.replicate_zero, List.nil_append]
  · rintro rfl
    exact shows_set column text

/-- **Texts set in their columns**, with a blank between two of them. -/
def setAll : List (Column × String) → String
  | [] => ""
  | [x] => x.1.set x.2
  | x :: y :: rest => x.1.set x.2 ++ " " ++ setAll (y :: rest)

/-- **What shows several texts** is what they are set to. -/
theorem line_iff {x : Column × String} {rest : List (Column × String)}
    {line : List Char} :
    Line (x :: rest) line ↔ line = (setAll (x :: rest)).toList := by
  induction rest generalizing x line with
  | nil =>
    constructor
    · rintro ⟨shows⟩
      exact shows_iff.mp shows
    · rintro rfl
      exact .one (shows_set _ _)
  | cons y rest ih =>
    have hset : (setAll (x :: y :: rest)).toList
        = (x.1.set x.2).toList ++ ' ' :: (setAll (y :: rest)).toList := by
      rw [setAll, String.toList_append, String.toList_append,
        List.append_assoc]
      rfl
    rw [hset]
    constructor
    · intro h
      cases h with
      | cons shows rest => rw [shows_iff.mp shows, ih.mp rest]
    · rintro rfl
      exact .cons (shows_set _ _) (ih.mpr rfl)

end Column

end NtpQuery.Text
