import Mathlib.Data.List.Perm.Basic
import NtpQuery.Proofs.Command.PeerText
import NtpQuery.Proofs.Command.Rows

/-!
# The rows of the tables of peers

There are six tables of peers, a short and a long one for all addresses,
for IPv4 and for IPv6. All of them are parts of one list, that of the
`Peers.entries`: the associations whose variables have a source address, in
the order of the server's list, each with the row that its variables make.
Which of them a table shows depends on the status of the association and on
the address in the row (`Peers.shown`), and on nothing else that the
variables hold. What they say does depend on it, and is the same in all
tables (`PeerLine.Tells`).
-/

namespace NtpQuery

open Text

/-- **A text that names an address** of a version, with or without a
port. -/
def IpVersion.Names (version : IpVersion) (text : String) : Prop :=
  ∃ ip, version.family.includes ip = true
    ∧ (IpAddr.ofText? text = some ip
      ∨ IpAddr.ofText? text = none
        ∧ ∃ a, SocketAddr.ofText? text = some a ∧ a.ip = ip)

namespace Peers

open PeerLine

/-- The source address that the variables of a response hold. -/
def source? (response : Response) : Option String :=
  Variable.lookup (Variable.parse response.text) "srcadr"

/-- The row that a response makes for an association. -/
def row? (now : Nat) (a : Association) (response : Response) :
    Option PeerLine :=
  ofVariables (Variable.parse response.text) a.status now

/-- **The rows of a list of associations** if the server answers each of
them in its own way. -/
def entries (now : Nat) (answer : UInt16 → Response)
    (list : List Association) : List (Association × PeerLine) :=
  list.filterMap fun a => (row? now a (answer a.assid)).map (Prod.mk a)

/-- The addresses that a table is about. -/
def family (version : Option IpVersion) : AddressFamily :=
  (version.map (·.family)).getD .any

/-- **What a table shows of the rows**: those of its addresses, and if it is
not the long one, those of associations that are configured or reachable. -/
def shown (all : Bool) (version : Option IpVersion)
    (rows : List (Association × PeerLine)) : List (Association × PeerLine) :=
  rows.filter fun x =>
    (all || x.1.isNotable) && x.2.belongsTo (family version)

variable {now : Nat} {answer : UInt16 → Response} {list : List Association}

/-- A row has the source address of its variables. -/
theorem row?_eq_some {a : Association} {response : Response} {row : PeerLine}
    (h : row? now a response = some row) :
    source? response = some row.remote ∧ row.addr = address? row.remote := by
  obtain ⟨remote, hsource, rfl⟩ := Option.map_eq_some_iff.mp h
  exact ⟨hsource, rfl⟩

/-- There is a row if there is a source address. -/
theorem isSome_row? (now : Nat) (a : Association) (response : Response) :
    (row? now a response).isSome = (source? response).isSome :=
  Option.isSome_map

/-- **One row for each association with a source address**, in order. -/
theorem map_fst_entries (now : Nat) (answer : UInt16 → Response)
    (list : List Association) :
    (entries now answer list).map Prod.fst
      = list.filter fun a => (source? (answer a.assid)).isSome := by
  unfold entries
  induction list with
  | nil => rfl
  | cons a list ih =>
    have hsome := isSome_row? now a (answer a.assid)
    rw [List.filterMap_cons, List.filter_cons, ← hsome]
    cases row? now a (answer a.assid) with
    | none => simpa using ih
    | some row => simpa using ih

/-- The row of an entry is made of the variables of its association. -/
theorem row?_of_mem_entries {x : Association × PeerLine}
    (h : x ∈ entries now answer list) :
    row? now x.1 (answer x.1.assid) = some x.2 := by
  obtain ⟨a, -, hx⟩ := List.mem_filterMap.mp h
  obtain ⟨row, hrow, rfl⟩ := Option.map_eq_some_iff.mp hx
  exact hrow

/-- The rows of some associations are those rows that are theirs. -/
theorem entries_filter (p : Association → Bool) :
    entries now answer (list.filter p)
      = (entries now answer list).filter fun x => p x.1 := by
  unfold entries
  induction list with
  | nil => rfl
  | cons a list ih =>
    rw [List.filter_cons, List.filterMap_cons]
    cases hp : p a <;> cases hrow : row? now a (answer a.assid) <;>
      simp [hp, hrow, ih]

/-- Of associations that a table may show, it shows the rows of its
addresses. -/
theorem shown_entries_of_forall {all : Bool}
    (h : ∀ a ∈ list, (all || a.isNotable) = true)
    (version : Option IpVersion) :
    shown all version (entries now answer list)
      = (entries now answer list).filter fun x =>
        x.2.belongsTo (family version) := by
  refine List.filter_congr fun x hx => ?_
  obtain ⟨a, ha, hmade⟩ := List.mem_filterMap.mp hx
  obtain ⟨row, -, rfl⟩ := Option.map_eq_some_iff.mp hmade
  show ((all || a.isNotable) && _) = _
  rw [h a ha, Bool.true_and]

/-- **A table of some associations.** Those that it does not show need not
be looked at. -/
theorem shown_entries_filter (all : Bool) (version : Option IpVersion) :
    shown all version
        (entries now answer (list.filter fun a => all || a.isNotable))
      = shown all version (entries now answer list) := by
  rw [entries_filter]
  unfold shown
  rw [List.filter_filter]
  refine List.filter_congr fun x _ => ?_
  cases all || x.1.isNotable <;> simp

/-- An address belongs to one of the versions, and not to both. -/
theorem belongsTo_cases (row : PeerLine) :
    (row.addr.isSome = (row.belongsTo .v4 || row.belongsTo .v6))
      ∧ ¬ (row.belongsTo .v4 = true ∧ row.belongsTo .v6 = true) := by
  unfold belongsTo
  cases row.addr with
  | none => simp
  | some ip => cases ip <;> simp [AddressFamily.includes]

/-- A text names an address if it can be read as that address. -/
theorem names_iff {version : IpVersion} {text : String} :
    version.Names text ↔ ∃ ip, address? text = some ip
      ∧ version.family.includes ip = true := by
  unfold IpVersion.Names address?
  cases IpAddr.ofText? text with
  | some ip => simp [and_comm]
  | none => simp [and_comm]

/-- **A row belongs to a version** if its source address names an address of
it. -/
theorem belongsTo_iff {x : Association × PeerLine}
    (hx : x ∈ entries now answer list) (version : IpVersion) :
    x.2.belongsTo version.family = true ↔ ∃ text,
      source? (answer x.1.assid) = some text ∧ version.Names text := by
  obtain ⟨hsource, haddr⟩ := row?_eq_some (row?_of_mem_entries hx)
  have hbelongs : x.2.belongsTo version.family
      = x.2.addr.any version.family.includes := by
    cases version <;> rfl
  rw [hbelongs, haddr, hsource, Option.any_eq_true]
  simp only [Option.some.injEq, exists_eq_left', names_iff]

/-- A table shows rows of its addresses only. -/
theorem belongsTo_of_mem_shown {all : Bool} {version : Option IpVersion}
    {rows : List (Association × PeerLine)} {x : Association × PeerLine}
    (h : x ∈ shown all version rows) :
    x.2.belongsTo (family version) = true := by
  have hx := (List.mem_filter.mp h).2
  exact (Bool.and_eq_true_iff.mp hx).2

/-- **A table for a version** shows the rows for all addresses that belong
to it. -/
theorem shown_some (all : Bool) (version : IpVersion)
    (rows : List (Association × PeerLine)) :
    shown all (some version) rows
      = (shown all none rows).filter fun x =>
        x.2.belongsTo version.family := by
  unfold shown
  rw [List.filter_filter]
  refine List.filter_congr fun x _ => ?_
  have hany : x.2.belongsTo (family none) = true := by
    simp [family, belongsTo]
  rw [hany, Bool.and_true, Bool.and_comm]
  rfl

/-- The tables for the two versions show the rows whose address can be read
and no others. -/
theorem shown_versions_perm (all : Bool)
    (rows : List (Association × PeerLine)) :
    (shown all (some .v4) rows ++ shown all (some .v6) rows).Perm
      ((shown all none rows).filter fun x => x.2.addr.isSome) := by
  -- a row with an address is for IPv4, or else it is for IPv6
  have h₄ : shown all (some .v4) rows
      = ((shown all none rows).filter fun x => x.2.addr.isSome).filter
        fun x => x.2.belongsTo .v4 := by
    rw [shown_some, List.filter_filter]
    refine List.filter_congr fun x _ => ?_
    rw [(belongsTo_cases x.2).1]
    show x.2.belongsTo .v4 = _
    cases x.2.belongsTo .v4 <;> simp
  have h₆ : shown all (some .v6) rows
      = ((shown all none rows).filter fun x => x.2.addr.isSome).filter
        fun x => !x.2.belongsTo .v4 := by
    rw [shown_some, List.filter_filter]
    refine List.filter_congr fun x _ => ?_
    obtain ⟨hsome, hboth⟩ := belongsTo_cases x.2
    rw [hsome]
    show x.2.belongsTo .v6 = _
    cases h : x.2.belongsTo .v4 <;> simp_all
  rw [h₄, h₆]
  exact List.filter_append_perm _ _

/-- **How the tables of a list of associations are parts of one list.** -/
structure Parts (now : Nat) (answer : UInt16 → Response)
    (list : List Association) : Prop where
  /-- It has a row for each association whose variables have a source
  address, in order. -/
  rows : (entries now answer list).map Prod.fst
    = list.filter fun a => (source? (answer a.assid)).isSome
  /-- A row is made of the variables of its association. -/
  made : ∀ x ∈ entries now answer list,
    row? now x.1 (answer x.1.assid) = some x.2
  /-- It says what they hold. -/
  told : ∀ x ∈ entries now answer list, x.2.Tells now x.1.status
    (Variable.lookup (Variable.parse (answer x.1.assid).text))
  /-- Its line shows it, and no other does. -/
  line : ∀ x ∈ entries now answer list, ∀ showHostnames line,
    x.2.Shows showHostnames line ↔ line = x.2.toLine showHostnames
  /-- The long table shows all rows. -/
  long : shown true none (entries now answer list) = entries now answer list
  /-- A short table shows the rows of the long one whose status has the bit
  for configured or that for reachable. -/
  short : ∀ version, shown false version (entries now answer list)
    = (shown true version (entries now answer list)).filter fun x =>
      x.1.status.toNat.testBit 15 || x.1.status.toNat.testBit 12
  /-- A table for a version shows the rows for all addresses that belong to
  it. -/
  flagged : ∀ all version, shown all (some version) (entries now answer list)
    = (shown all none (entries now answer list)).filter fun x =>
      x.2.belongsTo version.family
  /-- A row belongs to a version if the source address names an address of
  it. -/
  belongs : ∀ x ∈ entries now answer list, ∀ version : IpVersion,
    x.2.belongsTo version.family = true ↔ ∃ text,
      source? (answer x.1.assid) = some text ∧ version.Names text
  /-- The tables for the two versions have no row in common. -/
  disjoint : ∀ all, (shown all (some .v4) (entries now answer list)).Disjoint
    (shown all (some .v6) (entries now answer list))
  /-- Together they show the rows whose address can be read. -/
  together : ∀ all, (shown all (some .v4) (entries now answer list)
      ++ shown all (some .v6) (entries now answer list)).Perm
    ((shown all none (entries now answer list)).filter fun x =>
      x.2.addr.isSome)

/-- **The tables are parts of one list**, whatever the associations and the
answers are. -/
theorem parts (now : Nat) (answer : UInt16 → Response)
    (list : List Association) : Parts now answer list where
  rows := map_fst_entries now answer list
  made _ hx := row?_of_mem_entries hx
  told _ hx := tells_of_ofVariables (row?_of_mem_entries hx)
  line _ _ _ _ := shows_iff
  long := by
    unfold shown family
    exact List.filter_eq_self.mpr fun x _ => by simp [belongsTo]
  short version := by
    unfold shown
    rw [List.filter_filter]
    refine List.filter_congr fun x _ => ?_
    rw [← Associations.isNotable_eq, Bool.false_or, Bool.true_or,
      Bool.true_and]
  flagged all version := shown_some all version _
  belongs _ hx version := belongsTo_iff hx version
  disjoint _ x h₄ h₆ := (belongsTo_cases x.2).2
    ⟨belongsTo_of_mem_shown h₄, belongsTo_of_mem_shown h₆⟩
  together all := shown_versions_perm all _

end Peers

end NtpQuery
