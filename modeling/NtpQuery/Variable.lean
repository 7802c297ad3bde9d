import NtpQuery.Text.White

/-!
# Variable lists

Servers answer with lists of variables: `name=value` entries with commas
between them. A value may stand in double quotes, and then it may hold
commas; an entry without `=` is a name with an empty value.

`Variable.parse` reads such a list, keeping the quotes of values, and
`Variable.format` writes one, broken into lines of a given width.
-/

namespace NtpQuery

open Text

/-- **A variable** of a server. -/
structure Variable where
  /-- The name. -/
  name : String
  /-- The value as sent, with its quotes; empty if there is none. -/
  value : String
  deriving DecidableEq, Repr

namespace Variable

/-- Whether a character stands between entries. -/
def isGap (c : Char) : Bool :=
  c == ',' || isWhite c

/-- Whether a character ends a name. -/
def endsName (c : Char) : Bool :=
  c == '=' || c == ','

/-- **The value at the front of a text**, and the rest. A quoted value
ends with its closing quote, or with the text if there is none; any
other value ends before a comma. -/
def splitValue : List Char → List Char × List Char
  | '"' :: body =>
    match body.dropWhile (· != '"') with
    | [] => ('"' :: body, [])
    | quote :: rest => ('"' :: body.takeWhile (· != '"') ++ [quote], rest)
  | s => (s.takeWhile (· != ','), s.dropWhile (· != ','))

/-- The value of an entry whose name has just ended, and the rest of the
text. -/
def splitRest : List Char → List Char × List Char
  | '=' :: after => splitValue (trimStart after)
  | s => ([], s)

/-- **The entry that starts with the character `c`**: its name and
value, and the rest of the text. -/
def splitEntry (c : Char) (tail : List Char) :
    (List Char × List Char) × List Char :=
  if c = '=' then
    let (value, rest) := splitRest ('=' :: tail)
    (([], trim value), rest)
  else
    let name := c :: tail.takeWhile (! endsName ·)
    let (value, rest) := splitRest (tail.dropWhile (! endsName ·))
    ((trim name, trim value), rest)

theorem length_dropWhile_le {α : Type} (p : α → Bool) (s : List α) :
    (s.dropWhile p).length ≤ s.length :=
  (List.dropWhile_sublist p).length_le

theorem length_splitValue_le (s : List Char) :
    (splitValue s).2.length ≤ s.length := by
  fun_cases splitValue s with
  | case1 => simp
  | case2 body quote rest h =>
    have := length_dropWhile_le (· != '"') body
    rw [h] at this
    simp only [List.length_cons] at this ⊢
    omega
  | case3 => exact length_dropWhile_le ..

theorem length_splitRest_le (s : List Char) :
    (splitRest s).2.length ≤ s.length := by
  fun_cases splitRest s with
  | case1 after =>
    have := length_splitValue_le (trimStart after)
    have : (trimStart after).length ≤ after.length := length_dropWhile_le ..
    simp only [List.length_cons]
    omega
  | case2 => simp

/-- An entry takes at least its first character. -/
theorem length_splitEntry_le (c : Char) (tail : List Char) :
    (splitEntry c tail).2.length ≤ tail.length := by
  unfold splitEntry
  split
  · have := length_splitValue_le (trimStart tail)
    have : (trimStart tail).length ≤ tail.length := length_dropWhile_le ..
    simp only [splitRest]
    omega
  · have := length_splitRest_le (tail.dropWhile (! endsName ·))
    have := length_dropWhile_le (! endsName ·) tail
    simp only
    omega

/-- The entries of a list, those with an empty name left out. -/
def entries (s : List Char) : List (List Char × List Char) :=
  match _h : s.dropWhile isGap with
  | [] => []
  | c :: tail =>
    let entry := splitEntry c tail
    if entry.1.1.isEmpty then entries entry.2
    else entry.1 :: entries entry.2
termination_by s.length
decreasing_by
  all_goals
    have h₁ := length_splitEntry_le c tail
    have h₂ := length_dropWhile_le isGap s
    rw [_h] at h₂
    simp only [List.length_cons] at h₂
    omega

/-- **The variables in a text**, in order. -/
def parse (s : List Char) : List Variable :=
  (entries s).map fun e => ⟨String.ofList e.1, String.ofList e.2⟩

/-- The text without the double quotes at its two ends. -/
def unquote (s : String) : String :=
  String.ofList
    (dropEndWhile (· == '"') (s.toList.dropWhile (· == '"')))

/-- **The value of a variable**, without quotes around it. Of variables
with one name, the first counts. -/
def lookup (vars : List Variable) (name : String) : Option String :=
  (vars.find? (·.name == name)).map fun v => unquote v.value

/-- The written form of a variable. -/
def item (v : Variable) : String :=
  if v.value.isEmpty then v.name else v.name ++ "=" ++ v.value

/-- The written form of a variable in a list, with a comma when others
follow. -/
def itemBefore (v : Variable) (rest : List Variable) : String :=
  if rest.isEmpty then v.item else v.item ++ ","

/-- The lines of a list, where the current line holds `column` bytes
already. An item that does not fit with a blank in front of it starts a
new line. -/
def wrap (width : Nat) : Nat → List Variable → String
  | _, [] => ""
  | column, v :: rest =>
    let item := v.itemBefore rest
    let size := item.utf8ByteSize
    if column = 0 then item ++ wrap width size rest
    else if width < column + size + 1 then
      "\n" ++ item ++ wrap width size rest
    else " " ++ item ++ wrap width (column + 1 + size) rest

/-- **A variable list in lines** of at most `width` bytes, as far as
single items allow. A text that is not empty ends with its line. -/
def format (width : Nat) (vars : List Variable) : String :=
  let text := wrap width 0 vars
  if text.isEmpty then text else text ++ "\n"

end Variable

end NtpQuery
