import NtpQuery.Net.Script
import NtpQuery.Proofs.Command.PeerRows
import NtpQuery.Proofs.Session.Tape

/-!
# What the tables of peers show

A table of peers reads the list of associations anew and then asks the
server about one association after the other, as long as it answers
(`Run.askEach`). After each answer the row is written that the answer makes
(`Run.perform_showRows`). So the command fails if a query fails, and then
the rows stand that come before it; what a variable holds makes no
difference to that.

If the server has one answer for each association, the rows are those of
`Peers.entries`, and the six tables are parts of one list
(`Run.peers_tables`).
-/

namespace NtpQuery

open Text

/-- **What comes of a survey**: queries one after the other, up to the first
that fails. -/
structure Survey (τ ω : Type) where
  /-- The responses, in order. -/
  responses : List Response
  /-- The failure of the query that was the last, if it has failed. -/
  failure : Option ClientError
  /-- The run after them. -/
  run : Run τ ω

namespace Run

variable {τ : Type} [Transport τ]

section Asking

variable {ω : Type} [Workspace ω]

/-- **Asking about several associations**, one after the other, as long as
the server answers. -/
def askEach (opcode : Opcode) (data : Bytes) :
    List UInt16 → Run τ ω → Survey τ ω
  | [], r => ⟨[], none, r⟩
  | assid :: rest, r =>
    match r.query opcode assid data with
    | (.error e, r) => ⟨[], some e, r⟩
    | (.ok response, r) =>
      let asked := askEach opcode data rest r
      { asked with responses := response :: asked.responses }

/-- There are all responses if there is no failure, and else one is
missing. -/
theorem askEach_failure_eq_none_iff (opcode : Opcode) (data : Bytes)
    (assids : List UInt16) (r : Run τ ω) :
    (askEach opcode data assids r).failure = none
      ↔ (askEach opcode data assids r).responses.length = assids.length := by
  induction assids generalizing r with
  | nil => simp [askEach]
  | cons assid rest ih =>
    unfold askEach
    rcases r.query opcode assid data with ⟨e | response, next⟩
    · simp
    · simpa using ih next

end Asking

/-- What has been written makes no difference. -/
theorem askEach_told (opcode : Opcode) (data : Bytes)
    (assids : List UInt16) (r : Run τ Tape) (lines : List String) :
    askEach opcode data assids (r.told lines)
      = { askEach opcode data assids r with
          run := (askEach opcode data assids r).run.told lines } := by
  induction assids generalizing r with
  | nil => rfl
  | cons assid rest ih =>
    unfold askEach
    rw [query_told]
    rcases r.query opcode assid data with ⟨e | response, next⟩
    · rfl
    · dsimp only
      rw [ih]

/-- Nothing is written meanwhile. -/
theorem output_askEach (opcode : Opcode) (data : Bytes)
    (assids : List UInt16) (r : Run τ Tape) :
    (askEach opcode data assids r).run.workspace.output
      = r.workspace.output := by
  induction assids generalizing r with
  | nil => rfl
  | cons assid rest ih =>
    have houtput := output_query r opcode assid data
    unfold askEach
    rcases hquery : r.query opcode assid data with ⟨e | response, next⟩
    · rw [hquery] at houtput
      exact houtput
    · rw [hquery] at houtput
      exact (ih next).trans houtput

end Run

namespace Peers

open Routine

/-- The line that a response makes for an association, if it is to be
shown. -/
def line? (version : Option IpVersion) (now : Nat) (showHostnames : Bool)
    (a : Association) (response : Response) : Option String :=
  ((row? now a response).filter (·.belongsTo (family version))).map
    (·.toLine showHostnames)

/-- The lines of several associations with their responses. -/
def lines (version : Option IpVersion) (now : Nat) (showHostnames : Bool)
    (answered : List (Association × Response)) : List String :=
  answered.filterMap fun x => line? version now showHostnames x.1 x.2

theorem lines_cons (version : Option IpVersion) (now : Nat)
    (showHostnames : Bool) (x : Association × Response)
    (rest : List (Association × Response)) :
    lines version now showHostnames (x :: rest)
      = (line? version now showHostnames x.1 x.2).toList
        ++ lines version now showHostnames rest := by
  unfold lines
  rw [List.filterMap_cons]
  cases line? version now showHostnames x.1 x.2 <;> rfl

/-- **The lines are those of the rows**, as far as there are responses, if
the server answers each association in its own way. -/
theorem lines_of_prefix (version : Option IpVersion) (now : Nat)
    (showHostnames : Bool) {answer : UInt16 → Response}
    {list : List Association} {responses : List Response}
    (h : responses <+: list.map fun a => answer a.assid) :
    lines version now showHostnames (list.zip responses)
      = ((entries now answer (list.take responses.length)).filter fun x =>
          x.2.belongsTo (family version)).map
        fun x => x.2.toLine showHostnames := by
  induction responses generalizing list with
  | nil => simp [lines, entries]
  | cons response responses ih =>
    cases list with
    | nil => exact absurd (List.prefix_nil.mp h) (List.cons_ne_nil _ _)
    | cons a list =>
      obtain ⟨rfl, hrest⟩ := List.cons_prefix_cons.mp h
      rw [List.zip_cons_cons, lines_cons, ih hrest, List.length_cons,
        List.take_succ_cons]
      unfold entries line?
      rw [List.filterMap_cons]
      cases row? now a (answer a.assid) with
      | none => rfl
      | some row =>
        rw [Option.filter_some]
        cases h : row.belongsTo (family version) <;> simp [h]

/-- The lines above the rows. -/
def opening (wanted : List Association) : List String :=
  if wanted.isEmpty then [Associations.noneReturned] else heading

/-- **The commands that show peers**, and whether they show the long
table. -/
def listings : List (String × Bool) :=
  [("peers", false), ("lpeers", true)]

/-- They take a version, and show the table for it. -/
theorem of_mem_listings {c : Command Handler} {all : Bool}
    (hc : c ∈ Standard.tables.commands)
    (hlisting : (c.keyword, all) ∈ listings) :
    c.slots = [optional .ipVersion] ∧ c.action = showTable all := by
  have hcommands : ∀ c ∈ Standard.tables.commands, ∀ all,
      (c.keyword, all) ∈ listings →
      c.slots = [optional .ipVersion] ∧ c.action = showTable all := by
    unfold Standard.tables Tables.commands Standard.core Standard.extended
    simp [listings]
  exact hcommands c hc all hlisting

/-- The words that name a version. -/
def words : Option IpVersion → List String
  | none => []
  | some .v4 => ["-4"]
  | some .v6 => ["-6"]

end Peers

namespace Run

open Peers

variable {τ : Type} [Transport τ]

/-- The queries for the rows of some associations. -/
def askPeers (r : Run τ Tape) (list : List Association) : Survey τ Tape :=
  askEach .readVariables (utf8 variableNames) (list.map (·.assid)) r

/-- **One row**: the query may fail, and if it does not, the line is written
that its response makes. -/
theorem perform_showRow (t : Tables Unit) (version : Option IpVersion)
    (now : Nat) (a : Association) (r : Run τ Tape) :
    r.perform t (showRow (family version) now a)
      = match r.query .readVariables a.assid (utf8 variableNames) with
        | (.error e, next) => (.error e, next)
        | (.ok response, next) => (.ok (), next.told
          (line? version now r.client.state.showHostnames a
            response).toList) := by
  have hshow := (shown_query r .readVariables a.assid
    (utf8 variableNames)).2
  unfold showRow
  rw [perform_bind, perform_query]
  rcases hquery : r.query .readVariables a.assid (utf8 variableNames) with
    ⟨e | response, next⟩
  · rfl
  · rw [hquery] at hshow
    dsimp only
    unfold line? row?
    rw [← hshow]
    cases PeerLine.ofVariables (Variable.parse response.text) a.status now
      with
    | none => exact Prod.ext rfl (told_nil next).symm
    | some row =>
      dsimp only
      rw [Option.filter_some]
      split
      next =>
        rw [perform_bind, perform_state]
        exact perform_printLine t _ next
      next => exact Prod.ext rfl (told_nil next).symm

/-- **All rows**: the lines are written that the responses make, up to the
first query that fails. -/
theorem perform_showRows (t : Tables Unit) (version : Option IpVersion)
    (now : Nat) (list : List Association) (r : Run τ Tape) :
    r.perform t (list.forM (showRow (family version) now))
      = ((r.askPeers list).failure.elim (.ok ()) .error,
        (r.askPeers list).run.told
          (lines version now r.client.state.showHostnames
            (list.zip (r.askPeers list).responses))) := by
  induction list generalizing r with
  | nil => exact Prod.ext rfl (told_nil r).symm
  | cons a list ih =>
    have hshow := (shown_query r .readVariables a.assid
      (utf8 variableNames)).2
    show r.perform t (showRow (family version) now a >>= fun _ =>
      list.forM (showRow (family version) now)) = _
    rw [perform_bind, perform_showRow]
    unfold askPeers
    rw [List.map_cons, askEach]
    rcases hquery : r.query .readVariables a.assid (utf8 variableNames) with
      ⟨e | response, next⟩
    · exact Prod.ext rfl (told_nil next).symm
    · -- the line stays on the tape while the others are asked about
      rw [hquery] at hshow
      dsimp only
      rw [ih]
      unfold askPeers
      rw [askEach_told]
      dsimp only
      rw [told_told, List.zip_cons_cons, lines_cons]
      exact congrArg (fun shows => (_, (askEach _ _ _ next).run.told
        (_ ++ lines version now shows _))) hshow

/-- The associations that a table asks about. -/
def wanted (all : Bool) (r : Run τ Tape) : List Association :=
  r.client.state.associations.filter fun a => all || a.isNotable

/-- **A table**: the opening and the rows, once the list has been read. -/
theorem perform_showTable (t : Tables Unit) (all : Bool)
    {version : Option IpVersion} {i : Invocation} (r : Run τ Tape)
    (hversion : i.ipVersion? 0 = version) :
    r.perform t (showTable all i)
      = match r.refresh with
        | (.error e, next) => (.error e, next)
        | (.ok (), next) =>
          ((next.askPeers (next.wanted all)).failure.elim (.ok ()) .error,
            (next.askPeers (next.wanted all)).run.told
              (opening (next.wanted all)
                ++ lines version (currentSeconds next.world.now)
                  next.client.state.showHostnames
                  ((next.wanted all).zip
                    (next.askPeers (next.wanted all)).responses))) := by
  unfold showTable
  rw [hversion, perform_bind, perform_refresh]
  rcases r.refresh with ⟨e | _, next⟩
  · rfl
  · dsimp only
    rw [perform_bind, perform_state]
    dsimp only
    unfold opening
    generalize hwanted : next.wanted all = list
    unfold wanted at hwanted
    rw [hwanted]
    cases list with
    | nil =>
      -- nobody is asked, so there is no more than the opening
      exact perform_printLine t _ next
    | cons a list =>
      rw [if_neg (by simp), if_neg (by simp), perform_bind,
        perform_printLines]
      dsimp only
      rw [perform_bind, perform_ask]
      refine (perform_showRows t version (currentSeconds next.world.now)
        (a :: list) (next.told heading)).trans ?_
      unfold askPeers
      rw [askEach_told]
      dsimp only
      rw [told_told]
      rfl

/-- The queries that a table makes, once the list has been read. -/
def survey (all : Bool) (r : Run τ Tape) : Survey τ Tape :=
  r.refresh.2.askPeers (r.refresh.2.wanted all)

/-- The lines of the rows that a table shows of a list of associations. What
a row says and which line shows it is said without them (`Peers.Parts`). -/
def peerLines (all : Bool) (version : Option IpVersion)
    (answer : UInt16 → Response) (list : List Association) (r : Run τ Tape) :
    List String :=
  (shown all version (entries (currentSeconds r.world.now) answer list)).map
    fun x => x.2.toLine r.client.state.showHostnames

/-- **What a command line writes that shows a table of peers**, and how it
ends, if the server answers each association in its own way. -/
structure ShowsPeers (all : Bool) (version : Option IpVersion)
    (answer : UInt16 → Response) (keyword : String) (r : Run τ Tape)
    (x : Except Failure Unit × Run τ Tape) : Prop where
  /-- It succeeds if the list of associations can be read and no query
  fails. Else it fails. -/
  succeeds : x.1 = .ok ()
    ↔ r.refresh.1 = .ok () ∧ (r.survey all).failure = none
  /-- If the list cannot be read, nothing is written. -/
  unread : ∀ e, r.refresh.1 = .error e →
    x.1 = .error (.commandFailed keyword e)
      ∧ x.2.workspace.output = r.workspace.output
  /-- If a query fails, the rows are written that come before it. -/
  broken : ∀ e, r.refresh.1 = .ok () → (r.survey all).failure = some e →
    x.1 = .error (.commandFailed keyword e)
      ∧ x.2.workspace.output = (r.told (heading
        ++ r.peerLines all version answer ((r.refresh.2.wanted all).take
          (r.survey all).responses.length))).workspace.output
  /-- Else all rows are written. -/
  complete : r.refresh.1 = .ok () → (r.survey all).failure = none →
    x.2.workspace.output = (r.told (opening (r.refresh.2.wanted all)
      ++ r.peerLines all version answer
        r.refresh.2.client.state.associations)).workspace.output

omit [Transport τ] in
/-- What is written is written behind what there is. -/
theorem output_told {r r' : Run τ Tape}
    (h : r.workspace.output = r'.workspace.output) (lines : List String) :
    (r.told lines).workspace.output = (r'.told lines).workspace.output :=
  congrArg (· ++ _) h

/-- The rows of a survey are those of the associations that have been
answered. -/
theorem lines_survey (all : Bool) (version : Option IpVersion)
    {answer : UInt16 → Response} {r : Run τ Tape}
    (h : (r.survey all).responses
      <+: (r.refresh.2.wanted all).map fun a => answer a.assid) :
    lines version (currentSeconds r.refresh.2.world.now)
        r.refresh.2.client.state.showHostnames
        ((r.refresh.2.wanted all).zip (r.survey all).responses)
      = r.peerLines all version answer ((r.refresh.2.wanted all).take
        (r.survey all).responses.length) := by
  have hshow : r.refresh.2.client.state.showHostnames
      = r.client.state.showHostnames :=
    (Scope.shown_of_queries (Client.changes_refresh _ _ _)).2
  have hall : ∀ a ∈ (r.refresh.2.wanted all).take
      (r.survey all).responses.length, (all || a.isNotable) = true :=
    fun a ha => (List.mem_filter.mp (List.mem_of_mem_take ha)).2
  unfold peerLines
  rw [shown_entries_of_forall hall, lines_of_prefix version _ _ h, hshow]
  rfl

/-- **A table for a list that has been read**: the opening, and the rows of
the associations that have been answered. -/
theorem perform_showTable_ok (t : Tables Unit) {all : Bool}
    {version : Option IpVersion} {i : Invocation} {r : Run τ Tape}
    {answer : UInt16 → Response} (hversion : i.ipVersion? 0 = version)
    (hrefresh : r.refresh.1 = .ok ())
    (hfixed : (r.survey all).responses
      <+: (r.refresh.2.wanted all).map fun a => answer a.assid) :
    r.perform t (showTable all i)
      = ((r.survey all).failure.elim (.ok ()) .error,
        (r.survey all).run.told (opening (r.refresh.2.wanted all)
          ++ r.peerLines all version answer ((r.refresh.2.wanted all).take
            (r.survey all).responses.length))) := by
  rw [← lines_survey all version hfixed, perform_showTable t all r hversion,
    show r.refresh = (.ok (), r.refresh.2) from Prod.ext hrefresh rfl]
  rfl

/-- The rows of the associations that a table asks about are the rows that
it shows of the whole list. -/
theorem peerLines_wanted (all : Bool) (version : Option IpVersion)
    (answer : UInt16 → Response) (r : Run τ Tape) :
    r.peerLines all version answer (r.refresh.2.wanted all)
      = r.peerLines all version answer
        r.refresh.2.client.state.associations := by
  unfold peerLines wanted
  rw [shown_entries_filter]

/-- **All associations have been answered** if no query has failed. -/
theorem survey_of_no_failure {all : Bool} {r : Run τ Tape}
    (h : (r.survey all).failure = none) :
    (r.refresh.2.wanted all).take (r.survey all).responses.length
      = r.refresh.2.wanted all := by
  have hall : (r.survey all).responses.length = _ :=
    (askEach_failure_eq_none_iff .readVariables (utf8 variableNames)
      ((r.refresh.2.wanted all).map Association.assid) r.refresh.2).mp h
  rw [hall, List.length_map, List.take_length]

/-- If a query has failed, there is an association to ask about. -/
theorem wanted_ne_nil_of_failure {all : Bool} {r : Run τ Tape}
    {e : ClientError} (h : (r.survey all).failure = some e) :
    r.refresh.2.wanted all ≠ [] := by
  intro hnil
  unfold survey at h
  rw [hnil] at h
  exact nomatch h

/-- **A table of peers** is shown as described. -/
theorem dispatch_peers {r : Run τ Tape} {keyword : String}
    {c : Command Handler} {all : Bool}
    (hresolve : Standard.tables.resolve keyword = some c)
    (hlisting : (c.keyword, all) ∈ Peers.listings)
    (version : Option IpVersion) {answer : UInt16 → Response}
    (hfixed : (r.survey all).responses
      <+: (r.refresh.2.wanted all).map fun a => answer a.assid) :
    ShowsPeers all version answer c.keyword r
      (dispatch Standard.tables keyword (words version) r) := by
  obtain ⟨hslots, haction⟩ := Peers.of_mem_listings
    (Tables.mem_commands_of_resolve hresolve) hlisting
  obtain ⟨i, hread, hversion⟩ : ∃ i, Coercion.invocation keyword c.slots
      (words version) r = (.ok i, r) ∧ i.ipVersion? 0 = version := by
    rw [hslots]
    cases version with
    | none => exact ⟨_, rfl, rfl⟩
    | some v => cases v <;> exact ⟨_, rfl, rfl⟩
  rw [dispatch_of_reading hresolve hread, haction]
  cases hrefresh : r.refresh.1 with
  | error e =>
    rw [perform_showTable _ all r hversion,
      show r.refresh = (.error e, r.refresh.2) from Prod.ext hrefresh rfl]
    exact {
      succeeds := ⟨nofun, fun h => nomatch hrefresh.symm.trans h.1⟩
      unread := fun e' he' => by
        obtain rfl := Except.error.inj (hrefresh.symm.trans he')
        exact ⟨rfl, rfl⟩
      broken := fun _ h => nomatch hrefresh.symm.trans h
      complete := fun h => nomatch hrefresh.symm.trans h }
  | ok _ =>
    have houtput : (r.survey all).run.workspace.output
        = r.workspace.output := output_askEach _ _ _ _
    rw [perform_showTable_ok _ hversion hrefresh hfixed]
    cases hfailure : (r.survey all).failure with
    | none =>
      exact {
        succeeds := ⟨fun _ => ⟨hrefresh, hfailure⟩, fun _ => rfl⟩
        unread := fun _ h => nomatch hrefresh.symm.trans h
        broken := fun _ _ h => nomatch hfailure.symm.trans h
        complete := fun _ _ => by
          refine (output_told houtput _).trans ?_
          rw [survey_of_no_failure hfailure, peerLines_wanted] }
    | some e =>
      exact {
        succeeds := ⟨nofun, fun h => nomatch hfailure.symm.trans h.2⟩
        unread := fun _ h => nomatch hrefresh.symm.trans h
        broken := fun e' _ he' => by
          obtain rfl := Option.some.inj (hfailure.symm.trans he')
          refine ⟨rfl, (output_told houtput _).trans ?_⟩
          unfold opening
          rw [if_neg (by simpa using wanted_ne_nil_of_failure hfailure)]
        complete := fun _ h => nomatch hfailure.symm.trans h }

/-- **The tables of peers list exactly the right peers**, if the server
answers each association in its own way. Each of the six tables is shown as
described, and all of them are parts of one list, whose rows say what the
variables of their associations hold. -/
theorem peers_tables (r : Run τ Tape) (answer : UInt16 → Response)
    (hfixed : ∀ all, (r.survey all).responses
      <+: (r.refresh.2.wanted all).map fun a => answer a.assid) :
    (∀ keyword c all, Standard.tables.resolve keyword = some c →
      (c.keyword, all) ∈ Peers.listings → ∀ version,
      ShowsPeers all version answer c.keyword r
        (dispatch Standard.tables keyword (words version) r))
      ∧ Peers.Parts (currentSeconds r.world.now) answer
        r.refresh.2.client.state.associations :=
  ⟨fun _ _ all hresolve hlisting version =>
    dispatch_peers hresolve hlisting version (hfixed all),
    Peers.parts _ _ _⟩

/-- Three associations: the first is configured and has an IPv4 address with
a port, the second has an IPv6 address and variables that cannot be read,
and the third has no address at all. -/
theorem peers_tables_three :
    let text (parts : List String) := parts.flatMap utf8
    let first := text ["srcadr=10.0.0.1:123,", "srchost=time.example,",
      "refid=GPS,stratum=1,", "hmode=3,hpoll=6,ppoll=10,",
      "rec=0x83aa7e40.00000000,", "reach=377,delay=0.512,",
      "offset=-0.0204,jitter=0.1"]
    let second := text ["srcadr=2001:db8::1,", "rec=x,delay=never"]
    let third := text ["stratum=16"]
    let reply (data : Bytes) := [Script.Event.fragment {} 0 false data]
    let rules : List Script.Rule :=
      [⟨some 1, none, none,
          reply [0, 7, 0x96, 0x14, 0, 9, 0, 0x14, 0, 11, 0x80, 0], 0⟩,
        ⟨some 2, some 7, none, reply first, 0⟩,
        ⟨some 2, some 9, none, reply second, 0⟩,
        ⟨some 2, some 11, none, reply third, 0⟩]
    let w : World := ⟨0, fun _ => [.v4 #v[192, 0, 2, 1]], .unlimited,
      fun _ => true⟩
    let r : Run (Exchange Script) Tape :=
      ⟨w, .new {} ⟨⟨rules⟩, []⟩, ⟨[], Bytes.zeros 480⟩, .initial, []⟩
    let answer : UInt16 → Response := fun assid =>
      ⟨0, assid, if assid = 7 then first
        else if assid = 9 then second else third⟩
    let rows := entries (currentSeconds 0) answer
      r.refresh.2.client.state.associations
    (∀ all, (r.survey all).responses
        <+: (r.refresh.2.wanted all).map fun a => answer a.assid)
      ∧ (dispatch Standard.tables "lpeers" ["-6"] r).1 = .ok ()
      ∧ (shown true none rows).map (·.1.assid) = [7, 9]
      ∧ (shown false none rows).map (·.1.assid) = [7]
      ∧ (shown true (some .v6) rows).map (·.1.assid) = [9]
      ∧ (dispatch Standard.tables "lpeers" [] r).2.workspace.output
        = text ["     remote     ", "      refid      st t",
          " when poll reach", "   delay   offset  jitter\n",
          "====================", "====================",
          "====================", "===================\n",
          "*time.example    ", "GPS              1 u",
          "   64   64   377", "   0.512   -0.020   0.100\n",
          " 2001:db8::1     ", "-                - -",
          "    -    -     -", "   never        -       -\n"] := by
  intro text first second third reply rules w r answer rows
  have hfixed : ∀ all, (r.survey all).responses
      <+: (r.refresh.2.wanted all).map fun a => answer a.assid := by
    decide +kernel
  have hdone : r.refresh.1 = .ok () ∧ (r.survey true).failure = none := by
    decide +kernel
  obtain ⟨c, hresolve, hlisting⟩ : ∃ c,
      Standard.tables.resolve "lpeers" = some c
        ∧ (c.keyword, true) ∈ Peers.listings := ⟨_, rfl, by decide⟩
  obtain ⟨hshows, hparts⟩ := peers_tables r answer hfixed
  have hresult := (hshows "lpeers" c true hresolve hlisting
    (some .v6)).succeeds.mpr hdone
  have hlong : (shown true none rows).map (·.1.assid) = [7, 9] := by
    rw [hparts.long]
    decide +kernel
  exact ⟨hfixed, hresult, hlong, by decide +kernel, by decide +kernel,
    by decide +kernel⟩

end Run

end NtpQuery
