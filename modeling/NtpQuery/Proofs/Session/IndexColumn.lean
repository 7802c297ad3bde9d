import NtpQuery.Net.Script
import NtpQuery.Proofs.Client.ListLength
import NtpQuery.Proofs.Command.Rows
import NtpQuery.Proofs.Session.Printing
import NtpQuery.Proofs.Session.Queries

/-!
# What the tables of associations show

Four commands show the list of associations. Two of them show it as it is
and cannot fail (`Session.comesTo_showLast`). The other two read it anew;
they succeed if it can be read, and write nothing if not
(`Session.comesTo_showAnew`). In a session with the standard commands the
list is always short enough for all its indices to be typed
(`Session.bounded_performAll`). So the index that a row shows is the index
that selects its association from then on, as long as the list is not
changed (`Session.index_column`).
-/

namespace NtpQuery

open Text

namespace Run

variable {τ : Type} [Transport τ]

/-- Showing the list writes its table. -/
theorem perform_showLast (t : Tables Unit) (all : Bool) (i : Invocation)
    (r : Run τ Tape) :
    r.perform t (Associations.showLast all i)
      = (.ok (), r.told
        (Associations.table all r.client.state.associations)) := by
  unfold Associations.showLast
  rw [perform_bind, perform_state]
  exact perform_printLines t _ r

/-- Showing the list anew writes the table of the list that has been read,
or nothing if it cannot be read. -/
theorem perform_showAnew (t : Tables Unit) (all : Bool) (i : Invocation)
    (r : Run τ Tape) :
    r.perform t (Associations.showAnew all i)
      = match r.refresh with
        | (.error e, next) => (.error e, next)
        | (.ok (), next) => (.ok (), next.told
          (Associations.table all next.client.state.associations)) := by
  unfold Associations.showAnew
  rw [perform_bind, perform_refresh]
  rcases r.refresh with ⟨e | _, next⟩
  · rfl
  · exact perform_showLast t all i next

end Run

namespace Associations

/-- **The commands that show the list of associations**: whether they show
all of its entries, and whether they read it anew before. -/
def listings : List (String × Bool × Bool) :=
  [("associations", false, true), ("passociations", false, false),
    ("lassociations", true, true), ("lpassociations", true, false)]

/-- They take no arguments, and show the list as it is or anew. -/
theorem of_mem_listings {c : Command Handler} {all anew : Bool}
    (hc : c ∈ Standard.tables.commands)
    (hlisting : (c.keyword, all, anew) ∈ listings) :
    c.slots = [] ∧ c.action = if anew then showAnew all else showLast all := by
  have hcommands : ∀ c ∈ Standard.tables.commands, ∀ all anew,
      (c.keyword, all, anew) ∈ listings →
      c.slots = []
        ∧ c.action = if anew then showAnew all else showLast all := by
    unfold Standard.tables Tables.commands Standard.core Standard.extended
    simp [listings]
  exact hcommands c hc all anew hlisting

end Associations

/-- **A table command** is performed, whatever words follow its keyword. -/
theorem Run.dispatch_listing {τ : Type} [Transport τ] {keyword : String}
    {c : Command Handler} {all anew : Bool}
    (hresolve : Standard.tables.resolve keyword = some c)
    (hlisting : (c.keyword, all, anew) ∈ Associations.listings)
    (raws : List String) (r : Run τ Tape) :
    Run.dispatch Standard.tables keyword raws r
      = Run.ofCommand c.keyword (r.perform (Standard.tables.map fun _ => ())
        ((if anew then Associations.showAnew all
          else Associations.showLast all) ⟨keyword, []⟩)) := by
  obtain ⟨hslots, haction⟩ := Associations.of_mem_listings
    (Tables.mem_commands_of_resolve hresolve) hlisting
  have hread : Coercion.invocation keyword c.slots raws r
      = (.ok ⟨keyword, []⟩, r) := by
    rw [hslots]
    rfl
  rw [Run.dispatch_of_reading hresolve hread, haction]

/-- **Reading the list anew** comes to the same with every buffer of a
length. -/
theorem Client.refresh_of_length {τ : Type} [Transport τ] (c : Client τ)
    (w : World) {scratch scratch' : Bytes}
    (h : scratch'.length = scratch.length) :
    (c.refresh w scratch).result = (c.refresh w scratch').result
      ∧ (c.refresh w scratch).client = (c.refresh w scratch').client := by
  have halike := Client.Outcome.Alike.refresh
    ((Client.Alike.refl c).query Transport.alike_eq w .readStatus 0 [] h)
  exact ⟨halike.result, halike.client.eq⟩

namespace Session

variable {τ : Type} [Transport τ] {s : Session τ} {keyword : String}
variable {c : Command Handler} {all : Bool}

/-- **Showing the list as it is** succeeds. -/
theorem comesTo_showLast (hs : s.Reached) (hready : s.isReady = true)
    (htables : s.tables = Standard.tables)
    (hresolve : Standard.tables.resolve keyword = some c)
    (hlisting : (c.keyword, all, false) ∈ Associations.listings)
    (w : World) (raws : List String) :
    s.ComesTo w (keyword :: raws) (.ok ()) s.client
      (Associations.table all s.client.state.associations) := by
  refine comesTo_of_dispatch hs hready fun r hclient => ?_
  rw [htables, Run.dispatch_listing hresolve hlisting,
    if_neg Bool.false_ne_true, Run.perform_showLast, ← hclient]
  rfl

/-- **Showing the list anew** succeeds if and only if it can be read, and
shows the list that has been read. -/
theorem comesTo_showAnew (hs : s.Reached) (hready : s.isReady = true)
    (htables : s.tables = Standard.tables)
    (hresolve : Standard.tables.resolve keyword = some c)
    (hlisting : (c.keyword, all, true) ∈ Associations.listings)
    (w : World) (raws : List String) {b : Buffer}
    (hbuffer : s.buffer = some b) :
    let anew := s.client.refresh w b.scratch
    (anew.result = .ok () → s.ComesTo w (keyword :: raws) (.ok ())
        anew.client
        (Associations.table all anew.client.state.associations))
      ∧ ∀ e, anew.result = .error e → s.ComesTo w (keyword :: raws)
        (.error (.commandFailed c.keyword e)) anew.client [] := by
  intro anew
  have hperform : ∀ b', s.buffer = some b' →
      let r := s.start w (Tape.mk [] (Bytes.zeros b'.scratch.length))
      r.refresh.1 = anew.result ∧ r.refresh.2.client = anew.client := by
    intro b' hb'
    obtain rfl := Option.some.inj (hbuffer.symm.trans hb')
    obtain ⟨hresult, hclient⟩ := s.client.refresh_of_length w
      (show b.scratch.length = (Bytes.zeros b.scratch.length).length from
        (Bytes.length_zeros _).symm)
    exact ⟨hresult, hclient⟩
  refine ⟨fun hok => comesTo_of_tape hs hready fun b' hb' => ?_,
    fun e he => comesTo_of_tape hs hready fun b' hb' => ?_⟩
  · obtain ⟨hresult, hclient⟩ := hperform b' hb'
    intro r
    refine ⟨r.refresh.2, ?_, hclient, rfl⟩
    rw [htables, Run.dispatch_listing hresolve hlisting, if_pos rfl,
      Run.perform_showAnew, show r.refresh = (.ok (), r.refresh.2) from
        Prod.ext (hresult.trans hok) rfl, ← hclient]
    rfl
  · obtain ⟨hresult, hclient⟩ := hperform b' hb'
    intro r
    refine ⟨r.refresh.2, ?_, hclient, rfl⟩
    rw [htables, Run.dispatch_listing hresolve hlisting, if_pos rfl,
      Run.perform_showAnew, show r.refresh = (.error e, r.refresh.2) from
        Prod.ext (hresult.trans he) rfl, Run.told_nil]
    rfl

/-- **A history keeps the list bounded.** -/
theorem bounded_performAll (steps : List (Step τ))
    (htables : s.tables = Standard.tables) (h : s.client.Bounded) :
    (s.performAll steps).client.Bounded := by
  induction steps generalizing s with
  | nil => exact h
  | cons step steps ih =>
    refine ih ((tables_perform s step).trans htables) ?_
    cases hresets : s.resets step with
    | true =>
      obtain ⟨-, d, hclient, -⟩ := perform_of_resets hresets
      rw [hclient]
      exact Nat.zero_le _
    | false =>
      exact @upheld_perform _ _ s _ [] Client.Bounded.upheld htables h _
        hresets fun _ _ => h

/-- **The index column of the tables is the one that indices select by.**
After any history of a session, a command that shows the list of
associations as it is writes the table of that list. One that reads the
list anew writes the table of the list that it has read; if the list cannot
be read, it fails and writes nothing. If the list has entries then, the
index column of its table is right, and stays so while the list is the same.
The index zero selects nothing in any case. -/
theorem index_column (d : Defaults) (t : τ) (steps : List (Step τ))
    {keyword : String} {c : Command Handler} {all anew : Bool}
    (hresolve : Standard.tables.resolve keyword = some c)
    (hlisting : (c.keyword, all, anew) ∈ Associations.listings)
    (hready : ((new d t Standard.tables).performAll steps).isReady = true)
    (w : World) (raws : List String) (out : Bytes) :
    let s := (new d t Standard.tables).performAll steps
    let e := s.execute w (keyword :: raws) out
    let list := e.session.client.state.associations
    let refreshed (b : Buffer) := s.client.refresh w b.scratch
    (anew = false → s.ComesTo w (keyword :: raws) (.ok ()) s.client
        (Associations.table all s.client.state.associations))
      ∧ (anew = true → ∃ b, s.buffer = some b
        ∧ ((refreshed b).result = .ok () →
          s.ComesTo w (keyword :: raws) (.ok ()) (refreshed b).client
            (Associations.table all
              (refreshed b).client.state.associations))
        ∧ ∀ e, (refreshed b).result = .error e →
          s.ComesTo w (keyword :: raws)
            (.error (.commandFailed c.keyword e)) (refreshed b).client [])
      ∧ (e.result = .ok () → s.written w (keyword :: raws)
        = (Associations.table all list).flatMap
          fun line => utf8 (line ++ "\n"))
      ∧ (list ≠ [] → Associations.IndexColumn all list)
      ∧ ∀ {ω : Type} [Workspace ω] (r : Run τ ω) raw body,
        raw.toList = '&' :: body → IsNumeral UInt64.size 0 body →
        ∃ fault, (Coercion.coerce .unsigned raw r).1
          = .error (.unknownAssociation raw fault) := by
  intro s e list refreshed
  have hs : s.Reached := (Reached.new d t Standard.tables).performAll steps
  have htables : s.tables = Standard.tables :=
    tables_performAll steps (new d t Standard.tables)
  obtain ⟨-, b, hbuffer⟩ := exists_buffer_of_ready hready
  have hlast : anew = false → s.ComesTo w (keyword :: raws) (.ok ()) s.client
      (Associations.table all s.client.state.associations) := by
    rintro rfl
    exact comesTo_showLast hs hready htables hresolve hlisting w raws
  have hanew : anew = true →
      ((refreshed b).result = .ok () →
        s.ComesTo w (keyword :: raws) (.ok ()) (refreshed b).client
          (Associations.table all (refreshed b).client.state.associations))
      ∧ ∀ e, (refreshed b).result = .error e →
        s.ComesTo w (keyword :: raws)
          (.error (.commandFailed c.keyword e)) (refreshed b).client [] := by
    rintro rfl
    exact comesTo_showAnew hs hready htables hresolve hlisting w raws hbuffer
  refine ⟨hlast, fun h => ⟨b, hbuffer, hanew h⟩, fun hok => ?_,
    fun hne => ?_, fun r raw body hraw hn =>
    Coercion.coerce_index_zero hraw hn⟩
  · show s.written w (keyword :: raws)
      = (Associations.table all e.session.client.state.associations).flatMap _
    cases anew with
    | false =>
      have hcomes := hlast rfl
      rw [hcomes.written, hcomes.client]
    | true =>
      cases hresult : (refreshed b).result with
      | ok =>
        have hcomes := (hanew rfl).1 hresult
        rw [hcomes.written, hcomes.client]
      | error e' =>
        have hfailed := ((hanew rfl).2 e' hresult).result out
        exact nomatch hok.symm.trans hfailed
  · -- the command that shows the list is one more step of the history
    have hbefore : s.client.Bounded :=
      bounded_performAll steps rfl (Nat.zero_le maxResponse)
    have hbounded : e.session.client.Bounded := bounded_performAll
      [.call w (.execute (keyword :: raws) out)] htables hbefore
    exact Associations.indexColumn all hne hbounded.length_lt

/-- A server that has two associations and answers once. The short table has
a row for the second alone, with the index 2, and that index selects it. The
table can be shown again as it is, and not anew. -/
theorem index_column_second :
    let rule : Script.Rule :=
      ⟨none, none, some 1,
        [.fragment {} 0 false [0, 7, 0, 20, 0, 9, 0x94, 20]], 0⟩
    let w : World := ⟨0, fun _ => [.v4 #v[192, 0, 2, 1]], .files 8,
      fun _ => true⟩
    let t : Exchange Script := ⟨⟨[rule]⟩, []⟩
    let created : List (Step (Exchange Script)) := [.call w (.create 256)]
    let listed := created ++ [.call w (.execute ["as"] [])]
    let s := (new {} t Standard.tables).performAll created
    let s' := (new {} t Standard.tables).performAll listed
    let text := utf8 ("ind assid status  conf reach auth condition  "
      ++ "last_event cnt\n"
      ++ "===========================================================\n"
      ++ "  2     9  9414   yes   yes  none candidate   reachable  1\n")
    s.isReady = true ∧ s'.isReady = true
      ∧ s'.client.state.associations = [⟨7, 20⟩, ⟨9, 0x9414⟩]
      ∧ (s.execute w ["as"] []).result = .ok () ∧ s.written w ["as"] = text
      ∧ (s'.execute w ["pas"] []).result = .ok ()
      ∧ s'.written w ["pas"] = text
      ∧ (s'.execute w ["as"] []).result
        = .error (.commandFailed "associations" .timeout)
      ∧ s'.written w ["as"] = []
      ∧ ∀ r : Run (Exchange Script) Tape, r.client.state.associations
          = s'.client.state.associations →
        Coercion.coerce .unsigned "&2" r = (.ok (.unsigned 9), r) := by
  intro rule w t created listed s s' text
  have hready : s.isReady = true := by decide +kernel
  have hready' : s'.isReady = true := by decide +kernel
  have hlist : s'.client.state.associations = [⟨7, 20⟩, ⟨9, 0x9414⟩] := by
    decide +kernel
  have htable : (Associations.table false [⟨7, 20⟩, ⟨9, 0x9414⟩]).flatMap
      (fun line => utf8 (line ++ "\n")) = text := by decide +kernel
  obtain ⟨c, hresolve, hlisting⟩ : ∃ c,
      Standard.tables.resolve "as" = some c
        ∧ (c.keyword, false, true) ∈ Associations.listings :=
    ⟨_, rfl, by decide⟩
  obtain ⟨c', hresolve', hlisting'⟩ : ∃ c,
      Standard.tables.resolve "pas" = some c
        ∧ (c.keyword, false, false) ∈ Associations.listings :=
    ⟨_, rfl, by decide⟩
  have hok : (s.execute w ["as"] []).result = .ok () := by decide +kernel
  have hread : (s.execute w ["as"] []).session.client.state.associations
      = [⟨7, 20⟩, ⟨9, 0x9414⟩] := by decide +kernel
  obtain ⟨-, -, hwritten, hcolumn, -⟩ :=
    index_column {} t created hresolve hlisting hready w [] []
  obtain ⟨hlast, -⟩ :=
    index_column {} t listed hresolve' hlisting' hready' w [] []
  obtain ⟨-, hanew, -⟩ :=
    index_column {} t listed hresolve hlisting hready' w [] []
  obtain ⟨b, hbuffer, -, hfails⟩ := hanew rfl
  have hsilent : ∀ b ∈ s'.buffer,
      (s'.client.refresh w b.scratch).result = .error .timeout := by
    decide +kernel
  have hkeyword : c.keyword = "associations" := by
    obtain rfl := Option.some.inj hresolve
    rfl
  have hfailed := hfails .timeout (hsilent b hbuffer)
  rw [hkeyword] at hfailed
  refine ⟨hready, hready', hlist, hok, ?_, (hlast rfl).result [], ?_,
    hfailed.result [], hfailed.written, fun r hr => ?_⟩
  · rw [hwritten hok, hread, htable]
  · rw [(hlast rfl).written, hlist, htable]
  · have hword : "&" ++ decimal 2 = "&2" := by decide +kernel
    rw [hread] at hcolumn
    rw [← hword]
    exact (hcolumn (List.cons_ne_nil _ _)).selects r (hr.trans hlist)
      (⟨9, 0x9414⟩, 2) (by decide)

end Session

end NtpQuery
