import NtpQuery.Proofs.Text.Lines
import NtpQuery.Variable

/-!
# The lines of a variable list

Written over lines, a list is a run of items with a comma behind each but
the last. Between two items stands a blank or a line end, and one line end
stands behind the last item. So with blanks for the line ends inside, the
text is the same whatever the width.

The width says where lines end. They are filled from left to right: an item
goes on the line of the item before it if there is room for a blank and the
item, and else it starts a line (`Variable.Filled`). Only an item that has
a line for itself can be too long for it.

`Variable.wrap` keeps count of the bytes of the line that it is writing.
`Variable.exists_filled` is the induction: the line so far is known, it has
as many bytes as the count says, and whatever follows fills lines from
there on.
-/

namespace NtpQuery

namespace Variable

open Text

/-! ## Items and lines -/

/-- **The items of a list** as they are written, each with its comma. -/
def writtenItems : List Variable → List String
  | [] => []
  | v :: rest => v.itemBefore rest :: writtenItems rest

/-- The line that holds some items. -/
def lineOf (items : List String) : String :=
  " ".intercalate items

/-- **No item stands where it has no room**: behind those before it in the
line, there is room for a blank and the item. -/
def Fits (width : Nat) (row : List String) : Prop :=
  ∀ front item back, row = front ++ item :: back → front ≠ [] →
    (lineOf front).utf8ByteSize + 1 + item.utf8ByteSize ≤ width

/-- **Lines that are filled from left to right**, by the items that each of
them holds. -/
structure Filled (width : Nat) (rows : List (List String)) : Prop where
  /-- Every line holds an item. -/
  ne_nil : ∀ row ∈ rows, row ≠ []
  /-- An item is put behind others only where there is room for it. -/
  fits : ∀ row ∈ rows, Fits width row
  /-- An item starts a line only where the line above has no room for
  it. -/
  full : ∀ above row item back below,
    rows = above ++ row :: (item :: back) :: below →
      width < (lineOf row).utf8ByteSize + 1 + item.utf8ByteSize

theorem lineOf_concat {front : List String} (h : front ≠ [])
    (item : String) :
    lineOf (front ++ [item]) = lineOf front ++ " " ++ item := by
  unfold lineOf
  rw [String.intercalate_append_of_ne_nil h (List.cons_ne_nil item []),
    String.intercalate_singleton]

/-- A blank and the item are added to the line. -/
theorem size_lineOf_concat {front : List String} (h : front ≠ [])
    (item : String) :
    (lineOf (front ++ [item])).utf8ByteSize
      = (lineOf front).utf8ByteSize + 1 + item.utf8ByteSize := by
  rw [lineOf_concat h, String.utf8ByteSize_append,
    String.utf8ByteSize_append]
  rfl

theorem lineOf_ne_empty {row : List String} (hne : row ≠ [])
    (h : ∀ item ∈ row, item ≠ "") : lineOf row ≠ "" := by
  obtain ⟨item, back, rfl⟩ := List.exists_cons_of_ne_nil hne
  cases back with
  | nil => simpa [lineOf] using h item List.mem_cons_self
  | cons next back => simp [lineOf, String.intercalate_cons_cons]

/-- Lines with a blank between them are one line with all their items. -/
theorem lineOf_flatten {rows : List (List String)}
    (h : ∀ row ∈ rows, row ≠ []) :
    lineOf rows.flatten = lineOf (rows.map lineOf) := by
  induction rows with
  | nil => rfl
  | cons row rows ih =>
    have hbelow := ih fun r hr => h r (List.mem_cons_of_mem row hr)
    cases rows with
    | nil => simp [lineOf]
    | cons next rows =>
      have hrow := h row List.mem_cons_self
      have hnext := h next (List.mem_cons_of_mem row List.mem_cons_self)
      have hne : (next :: rows).flatten ≠ [] := by simp [hnext]
      show " ".intercalate (row ++ (next :: rows).flatten) = _
      rw [String.intercalate_append_of_ne_nil hrow hne]
      show _ ++ _ ++ lineOf (next :: rows).flatten = _
      rw [hbelow]
      exact String.intercalate_cons_cons.symm

/-- A line with all items has a comma and a blank between two of them. -/
theorem lineOf_writtenItems :
    ∀ vars : List Variable,
      lineOf (writtenItems vars) = ", ".intercalate (vars.map item)
  | [] => rfl
  | [v] => by simp [lineOf, writtenItems, itemBefore]
  | v :: w :: rest => by
    have ih := lineOf_writtenItems (w :: rest)
    rw [List.map_cons, List.map_cons, String.intercalate_cons_cons,
      ← List.map_cons, ← ih]
    show " ".intercalate (v.itemBefore (w :: rest) :: w.itemBefore rest
      :: writtenItems rest) = _
    rw [String.intercalate_cons_cons]
    show v.item ++ "," ++ " " ++ lineOf (writtenItems (w :: rest)) = _
    rw [String.append_assoc, String.append_assoc, String.append_assoc]
    rfl

/-! ## Filling lines -/

section Filling

variable {width : Nat} {row : List String}

theorem fits_singleton (item : String) : Fits width [item] := by
  rintro front other back h hne
  obtain ⟨first, front, rfl⟩ := List.exists_cons_of_ne_nil hne
  simp at h

/-- An item that has room goes on the line. -/
theorem Fits.concat (h : Fits width row) {item : String}
    (hroom : (lineOf row).utf8ByteSize + 1 + item.utf8ByteSize ≤ width) :
    Fits width (row ++ [item]) := by
  intro front other back hrow hne
  rcases List.eq_nil_or_concat back with rfl | ⟨back, final, rfl⟩
  · obtain ⟨rfl, hitem⟩ := List.append_inj' hrow rfl
    obtain rfl : item = other := by simpa using hitem
    exact hroom
  · refine h front other back ?_ hne
    rw [List.concat_eq_append, ← List.cons_append, ← List.append_assoc]
      at hrow
    exact (List.append_inj' hrow rfl).1

theorem filled_singleton (hne : row ≠ []) (h : Fits width row) :
    Filled width [row] where
  ne_nil := List.forall_mem_singleton.mpr hne
  fits := List.forall_mem_singleton.mpr h
  full := by
    intro above _ item back below hrows
    have := congrArg List.length hrows
    simp only [List.length_append, List.length_cons, List.length_nil] at this
    omega

/-- A line goes above filled lines if their first item has no room on
it. -/
theorem Filled.cons {item : String} {back : List String}
    {below : List (List String)}
    (h : Filled width ((item :: back) :: below)) (hne : row ≠ [])
    (hfits : Fits width row)
    (hfull : width < (lineOf row).utf8ByteSize + 1 + item.utf8ByteSize) :
    Filled width (row :: (item :: back) :: below) where
  ne_nil := List.forall_mem_cons.mpr ⟨hne, h.ne_nil⟩
  fits := List.forall_mem_cons.mpr ⟨hfits, h.fits⟩
  full := by
    intro above other first rest below' hrows
    cases above with
    | nil =>
      simp only [List.nil_append, List.cons.injEq] at hrows
      obtain ⟨rfl, ⟨rfl, -⟩, -⟩ := hrows
      exact hfull
    | cons top above =>
      exact h.full above other first rest below' (List.cons.inj hrows).2

/-- **A line that is filled is not longer than it may be**, unless it holds
a single item. -/
theorem Filled.size_le {rows : List (List String)} (h : Filled width rows)
    (hrow : row ∈ rows) :
    (lineOf row).utf8ByteSize ≤ width ∨ row.length = 1 := by
  rcases List.eq_nil_or_concat row with rfl | ⟨front, item, rfl⟩
  · exact absurd rfl (h.ne_nil [] hrow)
  rw [List.concat_eq_append] at hrow ⊢
  by_cases hfront : front = []
  · subst hfront
    exact Or.inr rfl
  · rw [size_lineOf_concat hfront]
    exact Or.inl (h.fits _ hrow front item [] rfl hfront)

end Filling

/-! ## What is written -/

theorem item_ne_empty {v : Variable} (h : v.name ≠ "") : v.item ≠ "" := by
  unfold item
  split
  · exact h
  · simp [h]

theorem itemBefore_ne_empty {v : Variable} (h : v.name ≠ "")
    (rest : List Variable) : v.itemBefore rest ≠ "" := by
  unfold itemBefore
  split
  · exact item_ne_empty h
  · simp

/-- **Filling lines from a line on.** The line so far holds the items
`row`, and the count is the number of its bytes. What is written next goes
on the line as long as there is room, and fills lines below it. -/
theorem exists_filled (width : Nat) {vars : List Variable}
    (hname : ∀ v ∈ vars, v.name ≠ "") {row : List String} (hne : row ≠ [])
    (hline : lineOf row ≠ "") (hfits : Fits width row) :
    ∃ back below, Filled width ((row ++ back) :: below)
      ∧ ((row ++ back) :: below).flatten = row ++ writtenItems vars
      ∧ lineOf row ++ wrap width (lineOf row).utf8ByteSize vars
        = "\n".intercalate (((row ++ back) :: below).map lineOf) := by
  induction vars generalizing row with
  | nil =>
    refine ⟨[], [], ?_, by simp [writtenItems], by simp [wrap]⟩
    rw [List.append_nil]
    exact filled_singleton hne hfits
  | cons v rest ih =>
    obtain ⟨hv, hrest⟩ := List.forall_mem_cons.mp hname
    have hitem := itemBefore_ne_empty hv rest
    rw [wrap, if_neg (mt String.utf8ByteSize_eq_zero_iff.mp hline)]
    split
    next hfull =>
      have hsingle : lineOf [v.itemBefore rest] = v.itemBefore rest :=
        String.intercalate_singleton
      obtain ⟨back, below, hfilled, hitems, htext⟩ := ih hrest
        (List.cons_ne_nil (v.itemBefore rest) []) (by rwa [hsingle])
        (fits_singleton _)
      rw [hsingle] at htext
      refine ⟨[], ([v.itemBefore rest] ++ back) :: below, ?_, ?_, ?_⟩
      · rw [List.append_nil]
        exact hfilled.cons hne hfits (by omega)
      · rw [List.append_nil, List.flatten_cons, hitems]
        rfl
      · rw [List.append_nil, List.map_cons, List.map_cons,
          String.intercalate_cons_cons, ← List.map_cons, ← htext]
        simp only [String.append_assoc]
    next hroom =>
      have hsize := size_lineOf_concat hne (v.itemBefore rest)
      have hlonger : lineOf (row ++ [v.itemBefore rest]) ≠ "" := by
        simp [lineOf_concat hne]
      obtain ⟨back, below, hfilled, hitems, htext⟩ := ih hrest
        (List.concat_ne_nil _ row) hlonger (hfits.concat (by omega))
      rw [List.append_assoc] at hfilled hitems htext
      refine ⟨[v.itemBefore rest] ++ back, below, hfilled, ?_, ?_⟩
      · rw [hitems, List.append_assoc]
        rfl
      · rw [← htext, hsize, lineOf_concat hne, Nat.add_right_comm]
        simp only [String.append_assoc]

/-- **The lines of a list** that is not empty: its first item starts
one. -/
theorem exists_rows (width : Nat) {vars : List Variable} (hne : vars ≠ [])
    (hname : ∀ v ∈ vars, v.name ≠ "") :
    ∃ rows, rows ≠ [] ∧ Filled width rows ∧ rows.flatten = writtenItems vars
      ∧ wrap width 0 vars = "\n".intercalate (rows.map lineOf) := by
  obtain ⟨v, rest, rfl⟩ := List.exists_cons_of_ne_nil hne
  obtain ⟨hv, hrest⟩ := List.forall_mem_cons.mp hname
  have hsingle : lineOf [v.itemBefore rest] = v.itemBefore rest :=
    String.intercalate_singleton
  obtain ⟨back, below, hfilled, hitems, htext⟩ := exists_filled width hrest
    (List.cons_ne_nil (v.itemBefore rest) [])
    (by rw [hsingle]; exact itemBefore_ne_empty hv rest)
    (fits_singleton _)
  rw [hsingle] at htext
  refine ⟨_, List.cons_ne_nil _ _, hfilled, hitems, ?_⟩
  rw [wrap, if_pos rfl, htext]

theorem oneLine_of_mem_writtenItems {vars : List Variable}
    (h : ∀ v ∈ vars, OneLine v.name ∧ OneLine v.value) :
    ∀ s ∈ writtenItems vars, OneLine s := by
  induction vars with
  | nil => exact List.forall_mem_nil _
  | cons v rest ih =>
    obtain ⟨⟨hname, hvalue⟩, hrest⟩ := List.forall_mem_cons.mp h
    refine List.forall_mem_cons.mpr ⟨?_, ih hrest⟩
    have hequals : OneLine "=" := by decide
    have hcomma : OneLine "," := by decide
    unfold itemBefore item
    split <;> split <;> simp [hname, hvalue, hequals, hcomma]

theorem ne_empty_of_mem_writtenItems {vars : List Variable}
    (h : ∀ v ∈ vars, v.name ≠ "") : ∀ s ∈ writtenItems vars, s ≠ "" := by
  induction vars with
  | nil => exact List.forall_mem_nil _
  | cons v rest ih =>
    obtain ⟨hv, hrest⟩ := List.forall_mem_cons.mp h
    exact List.forall_mem_cons.mpr ⟨itemBefore_ne_empty hv rest, ih hrest⟩

/-- **Writing over lines loses nothing, and no line is longer than it has
to be.** A list of named variables without line ends in them is written
with one line end behind it, and an empty list as nothing. With blanks for
the other line ends, the text is the items with commas and blanks between
them. Each of its lines holds one item or at least keeps to the width, and
an item starts a line exactly if a blank and the item, with its comma,
have no room on the line above. -/
theorem format_lines {vars : List Variable}
    (hname : ∀ v ∈ vars, v.name ≠ "")
    (hline : ∀ v ∈ vars, OneLine v.name ∧ OneLine v.value) (width : Nat) :
    (vars = [] → format width vars = "")
      ∧ (vars ≠ [] → ∃ (body : List Char) (rows : List (List String)),
        (format width vars).toList = body ++ ['\n']
          ∧ body.getLast? ≠ some '\n'
          ∧ body.map unbroken = (", ".intercalate (vars.map item)).toList
          ∧ body.splitOn '\n' = rows.map (fun row => (lineOf row).toList)
          ∧ rows.flatten = writtenItems vars
          ∧ Filled width rows
          ∧ ∀ row ∈ rows, (lineOf row).utf8ByteSize ≤ width
            ∨ row.length = 1) := by
  refine ⟨fun h => h ▸ rfl, fun hne => ?_⟩
  obtain ⟨rows, hrows, hfilled, hitems, htext⟩ :=
    exists_rows width hne hname
  have hmem : ∀ row ∈ rows, ∀ item ∈ row, item ∈ writtenItems vars :=
    fun row hrow item hitem =>
      hitems ▸ List.mem_flatten_of_mem hrow hitem
  have hone : ∀ s ∈ rows.map lineOf, OneLine s :=
    List.forall_mem_map.mpr fun row hrow => oneLine_intercalate (by decide)
      fun item hitem =>
        oneLine_of_mem_writtenItems hline item (hmem row hrow item hitem)
  have hempty : ∀ s ∈ rows.map lineOf, s ≠ "" :=
    List.forall_mem_map.mpr fun row hrow =>
      lineOf_ne_empty (hfilled.ne_nil row hrow) fun item hitem =>
        ne_empty_of_mem_writtenItems hname item (hmem row hrow item hitem)
  have hrowsne : rows.map lineOf ≠ [] := mt List.map_eq_nil_iff.mp hrows
  obtain ⟨s, hs, c, hc, hlast⟩ := getLast?_lines hrowsne hempty
  rw [← htext] at hlast
  refine ⟨(wrap width 0 vars).toList, rows, ?_, ?_, ?_, ?_, hitems, hfilled,
    fun row hrow => hfilled.size_le hrow⟩
  · have hwrap : wrap width 0 vars ≠ "" := by
      intro hnil
      rw [hnil] at hlast
      exact nomatch hlast
    unfold format
    dsimp only
    rw [if_neg (mt String.isEmpty_iff.mp hwrap), String.toList_append]
    rfl
  · rw [hlast]
    rintro ⟨⟩
    exact hone s hs hc
  · rw [htext, map_unbroken_lines hone, ← lineOf_writtenItems, ← hitems,
      lineOf_flatten hfilled.ne_nil]
    rfl
  · rw [htext, splitOn_lines hrowsne hone, List.map_map]
    rfl

/-- Two items that fit nine bytes exactly, and one that starts a line. -/
theorem format_lines_exact :
    let vars : List Variable := [⟨"a", "1"⟩, ⟨"bé", ""⟩, ⟨"c", "\"2 3\""⟩]
    (∀ v ∈ vars, v.name ≠ "")
      ∧ (∀ v ∈ vars, OneLine v.name ∧ OneLine v.value)
      ∧ format 9 vars = "a=1, bé,\nc=\"2 3\"\n"
      ∧ ∃ rows, rows.flatten = writtenItems vars ∧ Filled 9 rows
        ∧ ∀ row ∈ rows, (lineOf row).utf8ByteSize ≤ 9 ∨ row.length = 1 := by
  intro vars
  have hname : ∀ v ∈ vars, v.name ≠ "" := by decide
  have hline : ∀ v ∈ vars, OneLine v.name ∧ OneLine v.value := by decide
  obtain ⟨-, hlines⟩ := format_lines hname hline 9
  obtain ⟨_, rows, -, -, -, -, hitems, hfilled, hsize⟩ :=
    hlines (List.cons_ne_nil _ _)
  exact ⟨hname, hline, by decide, rows, hitems, hfilled, hsize⟩

end Variable

end NtpQuery
