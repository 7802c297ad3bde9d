import NtpQuery.Text.Numeral

/-!
# TOML strings

The four forms of strings: basic strings with escapes, literal strings
without, and both over several lines. Each reader starts after the
opening quotes and answers with the content and the text after the
closing quotes. Lines within a string keep their ends as they are
written; a carriage return that ends no line is refused.
-/

namespace NtpQuery.Toml

open Text

/-- A control character that no string and no comment may hold. The tab
is not one of them. -/
def isControl (c : Char) : Bool :=
  (c.toNat < 32 && c != '\t') || c.toNat == 127

/-- The character with the given hexadecimal digits, if it exists. -/
def escapedChar? (ds : List Char) : Option Char :=
  match readNumeral? 16 ds with
  | some n => if n.isValidChar then some (Char.ofNat n) else none
  | none => none

/-- The character that a letter after a backslash stands for. -/
def simpleEscape? : Char → Option Char
  | 'b' => some '\x08'
  | 't' => some '\t'
  | 'n' => some '\n'
  | 'f' => some '\x0c'
  | 'r' => some '\r'
  | 'e' => some '\x1b'
  | '"' => some '"'
  | '\\' => some '\\'
  | _ => none

/-- The content with one more character in front. -/
def before (c? : Option Char) (r : Option (List Char × List Char)) :
    Option (List Char × List Char) :=
  match c?, r with
  | some c, some (content, rest) => some (c :: content, rest)
  | _, _ => none

/-- **A basic string.** -/
def basic? : List Char → Option (List Char × List Char)
  | [] => none
  | '"' :: rest => some ([], rest)
  | '\\' :: 'x' :: a :: b :: rest =>
    before (escapedChar? [a, b]) (basic? rest)
  | '\\' :: 'u' :: a :: b :: c :: d :: rest =>
    before (escapedChar? [a, b, c, d]) (basic? rest)
  | '\\' :: 'U' :: a :: b :: c :: d :: e :: f :: g :: h :: rest =>
    before (escapedChar? [a, b, c, d, e, f, g, h]) (basic? rest)
  | '\\' :: c :: rest => before (simpleEscape? c) (basic? rest)
  | c :: rest => if isControl c then none else before (some c) (basic? rest)

/-- **A literal string.** -/
def literal? : List Char → Option (List Char × List Char)
  | [] => none
  | '\'' :: rest => some ([], rest)
  | c :: rest => if isControl c then none else before (some c) (literal? rest)

/-- The text without a line end at its front. -/
def dropNewline : List Char → List Char
  | '\n' :: rest => rest
  | '\r' :: '\n' :: rest => rest
  | s => s

/-- Whether a text starts with a line end. -/
def startsLine : List Char → Bool
  | '\n' :: _ => true
  | '\r' :: '\n' :: _ => true
  | _ => false

/-- Whether a character is white space of a document. -/
def isSpace (c : Char) : Bool :=
  c == ' ' || c == '\t' || c == '\n' || c == '\r'

/-- Whether the first character of a text may stand in a string over
several lines: it is part of a line end, or no control character. -/
def isLineText : List Char → Bool
  | [] => false
  | c :: rest => startsLine (c :: rest) || !isControl c

/-- **A basic string over several lines.** Two quotes may stand before
the closing ones. After a backslash at the end of a line, `skipping`
leaves out white space up to the next other character. -/
def multilineBasic? :
    (skipping : Bool) → List Char → Option (List Char × List Char)
  | _, [] => none
  | _, '"' :: '"' :: '"' :: '"' :: '"' :: rest => some (['"', '"'], rest)
  | _, '"' :: '"' :: '"' :: '"' :: rest => some (['"'], rest)
  | _, '"' :: '"' :: '"' :: rest => some ([], rest)
  | _, '\\' :: 'x' :: a :: b :: rest =>
    before (escapedChar? [a, b]) (multilineBasic? false rest)
  | _, '\\' :: 'u' :: a :: b :: c :: d :: rest =>
    before (escapedChar? [a, b, c, d]) (multilineBasic? false rest)
  | _, '\\' :: 'U' :: a :: b :: c :: d :: e :: f :: g :: h :: rest =>
    before (escapedChar? [a, b, c, d, e, f, g, h])
      (multilineBasic? false rest)
  | _, '\\' :: c :: rest =>
    if isSpace c then
      if startsLine ((c :: rest).dropWhile fun b => b == ' ' || b == '\t') then
        multilineBasic? true rest
      else none
    else before (simpleEscape? c) (multilineBasic? false rest)
  | skipping, c :: rest =>
    if !isLineText (c :: rest) then none
    else if skipping && isSpace c then multilineBasic? true rest
    else before (some c) (multilineBasic? false rest)

/-- **A literal string over several lines.** Two quotes may stand before
the closing ones. -/
def multilineLiteral? : List Char → Option (List Char × List Char)
  | [] => none
  | '\'' :: '\'' :: '\'' :: '\'' :: '\'' :: rest =>
    some (['\'', '\''], rest)
  | '\'' :: '\'' :: '\'' :: '\'' :: rest => some (['\''], rest)
  | '\'' :: '\'' :: '\'' :: rest => some ([], rest)
  | c :: rest =>
    if isLineText (c :: rest) then before (some c) (multilineLiteral? rest)
    else none

end NtpQuery.Toml
