import NtpQuery.Toml.Quoted
import NtpQuery.Toml.Scalar

/-!
# TOML documents

`Toml.parse?` reads a document into the entries of its root table. A
document is a sequence of lines, each empty, a header or a key with its
value; a value may run over several lines.

Nesting is limited: a key has at most `deepest` parts, and as many arrays
and inline tables may stand within each other.

The readers of values and of rows of them call each other. They carry a
bound on the depth of calls, which is twice the length of the text and
two: of two calls in a row at least one takes a character, so the bound
is never reached.
-/

namespace NtpQuery.Toml

/-- The text without the blanks at its front. -/
def skipBlanks (s : List Char) : List Char :=
  s.dropWhile isBlank

/-- The text after a comment, if it starts with one; the line end
stays. -/
def skipComment? (s : List Char) : Option (List Char) :=
  match s with
  | '#' :: rest =>
    let comment := rest.takeWhile (· != '\n')
    let comment := if comment.getLast? = some '\r' then comment.dropLast
      else comment
    if comment.any isControl then none else some (rest.drop comment.length)
  | _ => some s

/-- **The text after the end of a line**, which may hold a comment. -/
def endLine? (s : List Char) : Option (List Char) :=
  match skipComment? (skipBlanks s) with
  | some [] => some []
  | some s => if startsLine s then some (dropNewline s) else none
  | none => none

/-- The text without the blanks, line ends and comments at its front;
at most so many lines are left out. -/
def skipLines? : (lines : Nat) → List Char → Option (List Char)
  | 0, s => some s
  | lines + 1, s =>
    match skipComment? (skipBlanks s) with
    | none => none
    | some s =>
      if startsLine s then skipLines? lines (dropNewline s) else some s

/-- How many parts a key may have, and how many arrays and inline tables
may stand within each other. -/
def deepest : Nat := 80

/-- A character of a key without quotes. -/
def isBareKey (c : Char) : Bool :=
  c.isAlphanum || c == '_' || c == '-'

/-- One part of a key. -/
def keyPart? (s : List Char) : Option (String × List Char) :=
  match s with
  | '"' :: rest => (basic? rest).map fun (k, rest) => (String.ofList k, rest)
  | '\'' :: rest =>
    (literal? rest).map fun (k, rest) => (String.ofList k, rest)
  | _ =>
    let run := s.takeWhile isBareKey
    if run.isEmpty then none
    else some (String.ofList run, s.dropWhile isBareKey)

/-- A dotted key of at most so many parts, and the text after it and the
blanks that follow. -/
def keyParts? : (most : Nat) → List Char → Option (List String × List Char)
  | 0, _ => none
  | most + 1, s => do
    let (part, rest) ← keyPart? (skipBlanks s)
    match skipBlanks rest with
    | '.' :: rest =>
      let (parts, rest) ← keyParts? most rest
      return (part :: parts, rest)
    | rest => return ([part], rest)

/-- **A dotted key**, and the text after it and the blanks that
follow. -/
def key? (s : List Char) : Option (List String × List Char) :=
  keyParts? deepest s

/-- The value of a string, from a reading of its content. -/
def stringValue (r : Option (List Char × List Char)) :
    Option (Value × List Char) :=
  r.map fun (content, rest) => (.string (String.ofList content), rest)

mutual

/-- **A value** at the front of a text, and the rest. So many arrays and
inline tables may stand within each other in it. -/
def value? : (bound room : Nat) → List Char → Option (Value × List Char)
  | 0, _, _ => none
  | bound + 1, room, s =>
    match s with
    | '"' :: '"' :: '"' :: rest =>
      stringValue (multilineBasic? false (dropNewline rest))
    | '"' :: rest => stringValue (basic? rest)
    | '\'' :: '\'' :: '\'' :: rest =>
      stringValue (multilineLiteral? (dropNewline rest))
    | '\'' :: rest => stringValue (literal? rest)
    | '[' :: rest =>
      if room = 0 then none
      else
        (items? bound (room - 1) rest).map fun (items, rest) =>
          (.array false items, rest)
    | '\x7b' :: rest =>
      if room = 0 then none
      else
        (pairs? bound (room - 1) [] rest).map fun (entries, rest) =>
          (.table .inline entries, rest)
    | s =>
      let (run, rest) := scalarRun s
      (scalar? run).map fun v => (v, rest)

/-- The items of an array up to its closing bracket. Commas stand
between them, and one may follow the last. -/
def items? : (bound room : Nat) → List Char →
    Option (List Value × List Char)
  | 0, _, _ => none
  | bound + 1, room, s => do
    match ← skipLines? bound s with
    | ']' :: rest => return ([], rest)
    | s =>
      let (v, rest) ← value? bound room s
      match ← skipLines? bound rest with
      | ',' :: rest =>
        let (others, rest) ← items? bound room rest
        return (v :: others, rest)
      | ']' :: rest => return ([v], rest)
      | _ => none

/-- The entries of an inline table up to its closing brace, after those
that have been read. Commas stand between them, and one may follow the
last. -/
def pairs? : (bound room : Nat) → Entries → List Char →
    Option (Entries × List Char)
  | 0, _, _, _ => none
  | bound + 1, room, entries, s => do
    match ← skipLines? bound s with
    | '\x7d' :: rest => return (entries, rest)
    | s =>
      let (keys, rest) ← key? s
      match ← skipLines? bound rest with
      | '=' :: rest =>
        let (v, rest) ← value? bound room (← skipLines? bound rest)
        let entries ← entries.assign v keys
        match ← skipLines? bound rest with
        | ',' :: rest => pairs? bound room entries rest
        | '\x7d' :: rest => return (entries, rest)
        | _ => none
      | _ => none

end

/-- **Reading lines**: the entries that have been made so far and the
last header go from line to line. -/
def lines? : (bound : Nat) → List String → Entries → List Char →
    Option Entries
  | 0, _, _, _ => none
  | bound + 1, header, entries, s => do
    match skipBlanks s with
    | [] => return entries
    | '[' :: '[' :: rest =>
      let (keys, rest) ← key? rest
      match rest with
      | ']' :: ']' :: rest =>
        let entries ← entries.along Entries.appendTable keys
        lines? bound keys entries (← endLine? rest)
      | _ => none
    | '[' :: rest =>
      let (keys, rest) ← key? rest
      match rest with
      | ']' :: rest =>
        let entries ← entries.along Entries.defineTable keys
        lines? bound keys entries (← endLine? rest)
      | _ => none
    | c :: rest =>
      if c == '#' || startsLine (c :: rest) then
        lines? bound header entries (← endLine? (c :: rest))
      else
        let (keys, rest) ← key? (c :: rest)
        match rest with
        | '=' :: rest =>
          let (v, rest) ← value? bound deepest (skipBlanks rest)
          let entries ← entries.assignUnder header keys v
          lines? bound header entries (← endLine? rest)
        | _ => none

/-- **The root table of a document.** A byte order mark at its front is
left out. -/
def parse? (s : List Char) : Option Value :=
  let s := if s.head? = some '\uFEFF' then s.drop 1 else s
  (lines? (2 * s.length + 2) [] [] s).map (.table .header)

end NtpQuery.Toml
