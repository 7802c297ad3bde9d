/-!
# White space

A character is white when it has the Unicode property `White_Space`.
Trimming takes white characters off the ends of a text, and `words`
are the maximal runs of characters that are not white.

The functions work on lists of characters; the forms on `String` read
the characters and put the answer together again.
-/

namespace NtpQuery.Text

/-- The Unicode property `White_Space`. -/
def isWhite (c : Char) : Bool :=
  let n := c.toNat
  (9 ≤ n && n ≤ 13) || n == 0x20 || n == 0x85 || n == 0xA0 || n == 0x1680
    || (0x2000 ≤ n && n ≤ 0x200A) || n == 0x2028 || n == 0x2029
    || n == 0x202F || n == 0x205F || n == 0x3000

/-- The list without the longest end whose members all satisfy `p`. -/
def dropEndWhile {α : Type} (p : α → Bool) (s : List α) : List α :=
  (s.reverse.dropWhile p).reverse

/-- The text without the white characters at its front. -/
def trimStart (s : List Char) : List Char :=
  s.dropWhile isWhite

/-- The text without the white characters at its end. -/
def trimEnd (s : List Char) : List Char :=
  dropEndWhile isWhite s

/-- The text without the white characters at its two ends. -/
def trim (s : List Char) : List Char :=
  trimEnd (trimStart s)

/-- **The words of a text**: its maximal runs of characters that are
not white, in order. -/
def words : List Char → List (List Char)
  | [] => []
  | c :: rest =>
    if isWhite c then words rest
    else if rest.head?.all isWhite then [c] :: words rest
    else
      match words rest with
      | [] => [[c]]
      | w :: ws => (c :: w) :: ws

@[simp] theorem words_nil : words [] = [] := rfl

/-- A white character in front adds no word. -/
theorem words_cons_white {c : Char} (h : isWhite c = true) (s : List Char) :
    words (c :: s) = words s := by
  simp [words, h]

end NtpQuery.Text
