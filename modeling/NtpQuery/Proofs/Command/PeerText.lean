import Mathlib.Order.Bounds.Defs
import NtpQuery.Command.Peers
import NtpQuery.Proofs.Text.Column

/-!
# What a row of a table of peers says

A row says of a peer what the variables of its association hold and what
the mark of its status is (`PeerLine.Tells`). Its line is the mark and ten
texts in columns (`PeerLine.Shows`), and there is no other line that shows
the row (`PeerLine.shows_iff`).
-/

namespace NtpQuery

open Text

namespace PeerLine

/-- **A text for something that may be missing**: that of what there is, and
a dash if there is nothing. -/
def Dashed {α : Type} (holds : α → Prop) (text : α → String)
    (shown : String) : Prop :=
  (∃ a, holds a ∧ shown = text a) ∨ (∀ a, ¬ holds a) ∧ shown = "-"

/-- **The kind of an association**, from its source address and its
mode. -/
inductive Kind : String → Option String → Char → Prop
  /-- A local reference clock. -/
  | clock (rest : String) (mode : Option String) :
      Kind ("127.127." ++ rest) mode 'l'
  /-- A mode that has a letter. -/
  | mode {remote mode : String} {letter : Char}
      (remote_ne : ∀ rest, remote ≠ "127.127." ++ rest)
      (letters : (mode, letter)
        ∈ [("1", 's'), ("2", 's'), ("3", 'u'), ("5", 'b')]) :
      Kind remote (some mode) letter
  /-- No mode, or one without a letter. -/
  | other {remote : String} {mode : Option String}
      (remote_ne : ∀ rest, remote ≠ "127.127." ++ rest)
      (mode_ne : ∀ m ∈ mode, m ∉ ["1", "2", "3", "5"]) :
      Kind remote mode '-'

/-- The exponents of the two intervals between polls, as far as they can be
read. -/
def exponents (hpoll ppoll : Option String) : Set Nat :=
  {e | ∃ text, (hpoll = some text ∨ ppoll = some text)
    ∧ readUnsigned? 10 UInt32.size text.toList = some e}

/-- A number with three places, or the text itself if it is none. -/
def placed (text : String) : String :=
  (Binary64.read? text.toList).elim text (·.fixed 3)

/-- **What a row says of a peer** whose variables have the given values. -/
structure Tells (now : Nat) (status : UInt16)
    (value : String → Option String) (row : PeerLine) : Prop where
  /-- Three bits of the status are the outcome of peer selection. -/
  tally : [' ', 'x', '.', '-', '+', '#', '*', 'o'][status.toNat / 256 % 8]?
    = some row.tally
  remote : value "srcadr" = some row.remote
  hostName : value "srchost" = row.hostName
  refid : Dashed (value "refid" = some ·) id row.refid
  stratum : Dashed (value "stratum" = some ·) id row.stratum
  kind : Kind row.remote (value "hmode") row.kind
  /-- Zero and a time to come are no times to have been heard. -/
  lastHeard : Dashed
    (fun t => 0 < t ∧ t ≤ now
      ∧ ∃ text, value "rec" = some text ∧ ntpSeconds? text.toList = some t)
    (fun t => interval (now - t)) row.lastHeard
  /-- The lesser exponent counts, if its power is a number of 64 bits. -/
  poll : Dashed
    (fun e => e < 64 ∧ IsLeast (exponents (value "hpoll") (value "ppoll")) e)
    (fun e => interval (Nat.pow 2 e)) row.poll
  reach : Dashed (value "reach" = some ·) id row.reach
  delay : Dashed (value "delay" = some ·) placed row.delay
  offset : Dashed (value "offset" = some ·) placed row.offset
  jitter : Dashed (value "jitter" = some ·) placed row.jitter

/-- The text for what an optional value holds. -/
theorem dashed_map {α : Type} {holds : α → Prop} {o : Option α}
    (h : ∀ a, o = some a ↔ holds a) (text : α → String) :
    Dashed holds text ((o.map text).getD "-") := by
  cases o with
  | none => exact .inr ⟨fun a ha => (nomatch (h a).mpr ha), rfl⟩
  | some a => exact .inl ⟨a, (h a).mp rfl, rfl⟩

/-- The text of a variable that is shown as it is. -/
theorem dashed_getD (value : Option String) :
    Dashed (value = some ·) id (value.getD "-") := by
  have hshown := dashed_map (fun _ => Iff.rfl : ∀ a, value = some a ↔ _) id
  rwa [Option.map_id_fun, id] at hshown

/-- The kind of an association is as described. -/
theorem kind_kindOf (remote : String) (hmode : Option String) :
    Kind remote hmode (kindOf remote hmode) := by
  have hclock : "127.127.".toList.isPrefixOf remote.toList = true
      ↔ ∃ rest, remote = "127.127." ++ rest := by
    rw [List.isPrefixOf_iff_prefix]
    constructor
    · rintro ⟨rest, h⟩
      have hremote := congrArg String.ofList h
      rw [String.ofList_append, String.ofList_toList, String.ofList_toList]
        at hremote
      exact ⟨String.ofList rest, hremote.symm⟩
    · rintro ⟨rest, rfl⟩
      exact ⟨rest.toList, String.toList_append.symm⟩
  unfold kindOf
  split
  next h =>
    obtain ⟨rest, rfl⟩ := hclock.mp h
    exact .clock rest hmode
  next h =>
    have hne : ∀ rest, remote ≠ "127.127." ++ rest :=
      fun rest hrest => h (hclock.mpr ⟨rest, hrest⟩)
    split
    next h => obtain rfl | rfl := h <;> exact .mode hne (by decide)
    split
    next h => exact h ▸ .mode hne (by decide)
    split
    next h => exact h ▸ .mode hne (by decide)
    next h₁ h₃ h₅ =>
      refine .other hne fun m hm => ?_
      obtain rfl := Option.mem_def.mp hm
      simp_all

/-- The lesser exponent is the least of them. -/
theorem pollExponent_eq_some_iff {hpoll ppoll : Option String} {e : Nat} :
    pollExponent hpoll ppoll = some e
      ↔ IsLeast (exponents hpoll ppoll) e := by
  have hmem : ∀ e, e ∈ [hpoll, ppoll].filterMap (fun v =>
      v.bind fun t => readUnsigned? 10 UInt32.size t.toList)
      ↔ e ∈ exponents hpoll ppoll := by
    intro e
    simp only [List.mem_filterMap, List.mem_cons, List.not_mem_nil,
      or_false, exists_eq_left, Option.bind_eq_some_iff, or_and_right,
      exists_or, exponents]
    exact Iff.rfl
  unfold pollExponent
  rw [List.min?_eq_some_iff, hmem]
  exact and_congr_right fun _ => forall_congr' fun e' => by rw [hmem]

/-- The interval between polls is as described. -/
theorem dashed_pollText (hpoll ppoll : Option String) :
    Dashed (fun e => e < 64 ∧ IsLeast (exponents hpoll ppoll) e)
      (fun e => interval (Nat.pow 2 e)) (pollText hpoll ppoll) := by
  have htext : pollText hpoll ppoll
      = (((pollExponent hpoll ppoll).filter (· < 64)).map
        fun e => interval (Nat.pow 2 e)).getD "-" := by
    unfold pollText
    split
    next h => rw [h]; rfl
    next h => rw [h]; rfl
  rw [htext]
  refine dashed_map (fun e => ?_) _
  rw [Option.filter_eq_some_iff, pollExponent_eq_some_iff, and_comm,
    decide_eq_true_eq]

/-- The time since a peer was heard is as described. -/
theorem dashed_heardText (now : Nat) (rec : Option String) :
    Dashed
      (fun t => 0 < t ∧ t ≤ now
        ∧ ∃ text, rec = some text ∧ ntpSeconds? text.toList = some t)
      (fun t => interval (now - t)) (heardText now rec) := by
  have htext : heardText now rec
      = (((rec.bind fun r => ntpSeconds? r.toList).filter
          fun t => t ≠ 0 ∧ t ≤ now).map
        fun t => interval (now - t)).getD "-" := by
    unfold heardText
    split
    next h => rw [h]; rfl
    next h => rw [h]; rfl
  rw [htext]
  refine dashed_map (fun t => ?_) _
  rw [Option.filter_eq_some_iff, Option.bind_eq_some_iff, and_comm,
    decide_eq_true_eq, Nat.pos_iff_ne_zero, and_assoc]

/-- A number of milliseconds is as described. -/
theorem dashed_millisText (value : Option String) :
    Dashed (value = some ·) placed (millisText value) := by
  have htext : millisText value = (value.map placed).getD "-" := by
    cases value with
    | none => rfl
    | some text =>
      show _ = placed text
      unfold millisText placed
      cases h : Binary64.read? text.toList <;> simp [h]
  rw [htext]
  exact dashed_map (fun _ => Iff.rfl) placed

/-- The mark is that of the outcome of peer selection. -/
theorem tally_eq (status : UInt16) :
    [' ', 'x', '.', '-', '+', '#', '*', 'o'][status.toNat / 256 % 8]?
      = some (Status.tally status) := by
  have hlt : Status.select status < Status.tallyMarks.length :=
    Nat.mod_lt _ (by decide)
  show Status.tallyMarks[Status.select status]? = _
  rw [Status.tally, List.getD_eq_getElem?_getD, List.getElem?_eq_getElem hlt,
    Option.getD_some]

/-- **A row says what its variables hold.** -/
theorem tells_of_ofVariables {vars : List Variable} {status : UInt16}
    {now : Nat} {row : PeerLine}
    (h : ofVariables vars status now = some row) :
    row.Tells now status (Variable.lookup vars) := by
  obtain ⟨remote, hremote, rfl⟩ := Option.map_eq_some_iff.mp h
  exact {
    tally := tally_eq status
    remote := hremote
    hostName := rfl
    refid := dashed_getD _
    stratum := dashed_getD _
    kind := kind_kindOf _ _
    lastHeard := dashed_heardText now _
    poll := dashed_pollText _ _
    reach := dashed_getD _
    delay := dashed_millisText _
    offset := dashed_millisText _
    jitter := dashed_millisText _ }

/-- The name of the peer in its line: its host name, if it is to be shown
and known, or else its source address. -/
def name (row : PeerLine) : Bool → String
  | true => row.hostName.getD row.remote
  | false => row.remote

/-- The columns of a line, behind the mark. -/
def cells (row : PeerLine) (showHostnames : Bool) : List (Column × String) :=
  [(.left 15, row.name showHostnames), (.left 15, row.refid),
    (.right 2, row.stratum), (.right 1, String.singleton row.kind),
    (.right 4, row.lastHeard), (.right 4, row.poll), (.right 5, row.reach),
    (.right 7, row.delay), (.right 8, row.offset), (.right 7, row.jitter)]

/-- **A line shows a row**: first comes the mark, and then the texts in
their columns. -/
def Shows (row : PeerLine) (showHostnames : Bool) (line : String) : Prop :=
  ∃ rest, line.toList = row.tally :: rest
    ∧ Column.Line (row.cells showHostnames) rest

/-- The line of a row is made as described. -/
theorem toList_toLine (row : PeerLine) (showHostnames : Bool) :
    (row.toLine showHostnames).toList
      = row.tally :: (Column.setAll (row.cells showHostnames)).toList := by
  have hname : (if showHostnames then row.hostName.getD row.remote
      else row.remote) = row.name showHostnames := by
    cases showHostnames <;> rfl
  have hkind : padLeft 1 (String.singleton row.kind)
      = String.singleton row.kind := by
    unfold padLeft
    simp
  have hline : row.toLine showHostnames = String.singleton row.tally
      ++ Column.setAll (row.cells showHostnames) := by
    unfold toLine cells
    dsimp only
    rw [hname]
    simp only [Column.setAll, Column.set, hkind, column15,
      String.append_assoc]
  rw [hline, String.toList_append, String.toList_singleton]
  rfl

/-- **There is one line that shows a row.** -/
theorem shows_iff {row : PeerLine} {showHostnames : Bool} {line : String} :
    row.Shows showHostnames line ↔ line = row.toLine showHostnames := by
  unfold Shows
  constructor
  · rintro ⟨rest, hline, hcells⟩
    obtain rfl : rest = (Column.setAll (row.cells showHostnames)).toList :=
      Column.line_iff.mp hcells
    exact String.toList_inj.mp (hline.trans (toList_toLine _ _).symm)
  · rintro rfl
    exact ⟨_, toList_toLine row showHostnames, Column.line_iff.mpr rfl⟩

end PeerLine

end NtpQuery
