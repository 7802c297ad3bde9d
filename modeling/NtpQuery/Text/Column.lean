/-!
# Columns

Tables are set in columns whose widths count characters. A text
shorter than its column is filled with blanks, on the left or on the
right; a longer one runs over, unless it is cut first.
-/

namespace NtpQuery.Text

/-- The text moved to the right of a column of the given width. -/
def padLeft (width : Nat) (s : String) : String :=
  String.ofList (List.replicate (width - s.length) ' ') ++ s

/-- The text at the left of a column of the given width. -/
def padRight (width : Nat) (s : String) : String :=
  s ++ String.ofList (List.replicate (width - s.length) ' ')

/-- The first `width` characters of the text. -/
def cut (width : Nat) (s : String) : String :=
  String.ofList (s.toList.take width)

/-- A padded text fills its column. -/
theorem length_padLeft (width : Nat) (s : String) :
    (padLeft width s).length = max width s.length := by
  simp only [padLeft, String.length_append, String.length_ofList,
    List.length_replicate]
  omega

/-- A padded text fills its column. -/
theorem length_padRight (width : Nat) (s : String) :
    (padRight width s).length = max width s.length := by
  simp only [padRight, String.length_append, String.length_ofList,
    List.length_replicate]
  omega

end NtpQuery.Text
