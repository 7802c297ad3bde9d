import NtpQuery.Net.Script
import NtpQuery.Proofs.Command.Resolution
import NtpQuery.Proofs.Session.Printing

/-!
# Help describes the command that would run

Help looks its topic up in the catalogue, in which the commands stand without
their actions; a command line looks its keyword up in the tables themselves.
The topic has been read as an argument by then, and the keyword has not. Both
still come to the same command (`Settings.topicLines_map`), so help describes
what would run, and it does not know a topic exactly if that would be an
unknown command (`Session.help_describes_what_runs`).
-/

namespace NtpQuery

open Text

namespace Settings

variable {α β : Type}

/-- **The description of a command**: what it is for, and how to use it. -/
def description (c : Command α) : List String :=
  ["function: " ++ c.comment, "usage: " ++ c.keyword ++ " " ++ c.usage]

/-- What is said of a topic that is not known. -/
def unknownTopic (topic : String) : String :=
  "Command `" ++ topic ++ "' is unknown"

/-- What is said of a topic. -/
def topicLines (t : Tables α) (topic : String) : List String :=
  match t.resolve topic with
  | some c => description c
  | none => [unknownTopic topic]

/-- The actions do not matter for it. -/
theorem topicLines_map (f : α → β) (t : Tables α) (topic : String) :
    topicLines (t.map f) topic = topicLines t topic := by
  unfold topicLines
  rw [Tables.resolve_map]
  cases t.resolve topic <;> rfl

/-- **Help on a topic** says what there is to say of it. -/
theorem perform_help {τ : Type} [Transport τ] (t : Tables Unit)
    (keyword topic : String) (r : Run τ Tape) :
    r.perform t (help ⟨keyword, [.text topic]⟩)
      = (.ok (), r.told (topicLines t topic)) := by
  unfold help topicLines
  rw [Run.perform_bind, Run.perform_ask]
  dsimp only [Invocation.text?, Run.answer, List.getElem?_cons_zero]
  cases t.resolve topic with
  | none => exact Run.perform_printLine t _ r
  | some c =>
    dsimp only
    rw [Run.perform_bind, Run.perform_printLine]
    dsimp only
    rw [Run.perform_printLine, Run.told_told]
    rfl

/-- A description is not what is said of a topic that is not known: the
first letters differ. -/
theorem description_ne_unknownTopic (c : Command α) (topic : String) :
    ((description c).flatMap fun line => utf8 (line ++ "\n"))
      ≠ [unknownTopic topic].flatMap fun line => utf8 (line ++ "\n") := by
  intro heq
  have hfirst := congrArg List.head? heq
  simp [description, unknownTopic, utf8, encode, encodeChar] at hfirst

end Settings

/-- **A keyword alone** gives no arguments, or lacks one. -/
theorem Coercion.invocation_nil {κ : Type} [Surroundings κ]
    (keyword : String) (slots : List Slot) (k : κ) :
    invocation keyword slots [] k = (.ok ⟨keyword, []⟩, k)
      ∨ invocation keyword slots [] k
        = (.error (.tooFewArguments keyword), k) := by
  unfold invocation
  cases slots.take maxSlots with
  | nil => exact Or.inl rfl
  | cons slot _ =>
    unfold coerceAll
    cases slot.required with
    | false => exact Or.inl rfl
    | true => exact Or.inr rfl

/-- **A command that is carried out is known.** -/
theorem Run.invoke_ne_unknown {τ ω : Type} [Transport τ] [Workspace ω]
    (catalogue : Tables Unit) (c : Command Handler) (keyword name : String)
    (r : Run τ ω) :
    (r.invoke catalogue c keyword []).1 ≠ .error (.unknownCommand name) := by
  rcases invoke_cases catalogue c keyword [] r with
    ⟨e, r', hread, heq⟩ | ⟨i, r', -, heq⟩
  · rw [heq]
    intro he
    obtain rfl := Except.error.inj he
    rcases Coercion.invocation_nil keyword c.slots r with hok | hfew
    · exact nomatch hread.symm.trans hok
    · exact nomatch hread.symm.trans hfew
  · rw [heq]
    intro he
    obtain ⟨cause, hcause⟩ := eq_of_ofCommand_error he
    exact nomatch hcause

namespace Session

variable {τ : Type} [Transport τ] {s : Session τ}

/-- **A keyword alone runs a command** in the session: its arguments are
read, and it is performed. -/
def Runs (s : Session τ) (keyword : String) (c : Command Handler) : Prop :=
  ∀ {ω : Type} [Workspace ω] (r : Run τ ω),
    Run.dispatch s.tables keyword [] r
      = r.invoke (s.tables.map fun _ => ()) c keyword []

/-- The command that a keyword selects is the one that it runs. -/
theorem runs_of_resolve {keyword : String} {c : Command Handler}
    (hresolve : s.tables.resolve keyword = some c) : s.Runs keyword c := by
  intro ω _ r
  unfold Run.dispatch
  rw [hresolve]

/-- **A keyword is unknown** to the tables if it is unknown to a command
line. -/
theorem execute_unknown_iff (hready : s.isReady = true) (w : World)
    (keyword : String) (out : Bytes) :
    (∃ name, (s.execute w [keyword] out).result
        = .error (.unknownCommand name))
      ↔ s.tables.resolve keyword = none := by
  obtain ⟨hopened, buffer, hbuffer⟩ := exists_buffer_of_ready hready
  have hrun : (s.execute w [keyword] out).result
      = (Run.dispatch s.tables keyword [] (s.start w buffer.clear)).1 :=
    congrArg Execution.result (run_cons hopened hbuffer)
  rw [hrun]
  cases hresolve : s.tables.resolve keyword with
  | none =>
    unfold Run.dispatch
    rw [hresolve]
    exact iff_of_true ⟨keyword, rfl⟩ rfl
  | some c =>
    rw [runs_of_resolve hresolve]
    refine iff_of_false ?_ nofun
    rintro ⟨name, hname⟩
    exact Run.invoke_ne_unknown _ c keyword name _ hname

/-- **Help describes the command that would run.** Let a keyword select
help, in a session with whatever commands. Help on any topic succeeds, and
leaves the client with its transport as it was. It writes the description of
the command that the topic by itself would run, or that the topic is
unknown, which it does exactly if the topic by itself is refused as an
unknown command. -/
theorem help_describes_what_runs (hs : s.Reached)
    (hready : s.isReady = true) {keyword : String} {c : Command Handler}
    (hresolve : s.tables.resolve keyword = some c)
    (hslots : c.slots = [optional .text]) (haction : c.action = Settings.help)
    (topic : String) (more : List String) (w : World) :
    let argv := keyword :: topic :: more
    (∀ d, s.tables.resolve topic = some d → s.Runs topic d
        ∧ s.ComesTo w argv (.ok ()) s.client (Settings.description d))
      ∧ (s.tables.resolve topic = none →
        s.ComesTo w argv (.ok ()) s.client [Settings.unknownTopic topic])
      ∧ ∀ w' out,
        (s.written w argv = utf8 (Settings.unknownTopic topic ++ "\n"))
          ↔ ∃ name, (s.execute w' [topic] out).result
            = .error (.unknownCommand name) := by
  intro argv
  have hhelp : s.ComesTo w argv (.ok ()) s.client
      (Settings.topicLines s.tables topic) := by
    refine comesTo_of_dispatch hs hready fun r hclient => ?_
    have hread : Coercion.invocation keyword c.slots (topic :: more) r
        = (.ok ⟨keyword, [.text topic]⟩, r) := by
      rw [hslots, Coercion.invocation_one]
      rfl
    rw [Run.dispatch_of_reading hresolve hread, haction,
      Settings.perform_help, Settings.topicLines_map, ← hclient]
    rfl
  have hknown : ∀ d, s.tables.resolve topic = some d →
      s.ComesTo w argv (.ok ()) s.client (Settings.description d) := by
    intro d hd
    unfold Settings.topicLines at hhelp
    rwa [hd] at hhelp
  have hunknown : s.tables.resolve topic = none →
      s.ComesTo w argv (.ok ()) s.client [Settings.unknownTopic topic] := by
    intro hnone
    unfold Settings.topicLines at hhelp
    rwa [hnone] at hhelp
  refine ⟨fun d hd => ⟨runs_of_resolve hd, hknown d hd⟩, hunknown,
    fun w' out => ?_⟩
  rw [execute_unknown_iff hready, ← List.flatMap_singleton
    (fun line => utf8 (line ++ "\n"))]
  constructor
  · intro hwritten
    cases hd : s.tables.resolve topic with
    | none => rfl
    | some d =>
      exact absurd ((hknown d hd).written.symm.trans hwritten)
        (Settings.description_ne_unknownTopic d topic)
  · exact fun hnone => (hunknown hnone).written

/-- Help can be abbreviated, and so can its topic. -/
theorem help_describes_what_runs_host :
    let w : World := ⟨0, fun _ => [], .files 8, fun _ => true⟩
    let closed : Session (Exchange Script) :=
      .new {} ⟨⟨[]⟩, []⟩ Standard.tables
    let s := (closed.create w 64).2
    s.ComesTo w ["h", "ho"] (.ok ()) s.client
        ["function: specify the host whose NTP server we talk to",
          "usage: host [ -4|-6 ] [ hostname ]"]
      ∧ s.ComesTo w ["h", "hôte"] (.ok ()) s.client
        ["Command `hôte' is unknown"]
      ∧ ∃ name, (s.execute w ["hôte"] []).result
        = .error (.unknownCommand name) := by
  intro w closed s
  have hs : s.Reached := .answer w (.create 64) (.new {} _ _)
  have hready : s.isReady = true := by decide
  have htables : s.tables = Standard.tables :=
    tables_perform closed (.call w (.create 64))
  have hresolve : s.tables.resolve "h" = some Standard.core[1] := by
    rw [htables]
    rfl
  have hhost : s.tables.resolve "ho" = some Standard.core[4] := by
    rw [htables]
    rfl
  have hnone : s.tables.resolve "hôte" = none := by
    rw [htables]
    rfl
  have hhelp := @help_describes_what_runs _ _ s hs hready _ _ hresolve rfl rfl
  obtain ⟨-, hunknown, hiff⟩ := hhelp "hôte" [] w
  exact ⟨((hhelp "ho" [] w).1 _ hhost).2, hunknown hnone,
    (hiff w []).mp (hunknown hnone).written⟩

end Session

end NtpQuery
