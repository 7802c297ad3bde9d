import NtpQuery.Net.Script
import NtpQuery.Proofs.Command.Calls
import NtpQuery.Proofs.Command.Resolution
import NtpQuery.Proofs.Session.Early
import NtpQuery.Proofs.Session.Lifecycle

/-!
# Abbreviated keywords

Typing a part of the name of a command is as good as typing all of it, if
the part selects the command. The selection is stable
(`Tables.resolve_of_longer`), so the name selects the command as well. From
there on the keyword is seen in two places only. A command line that lacks
an argument quotes the keyword in its failure (`Failure.typed`), and the
routine of a command is told the keyword together with the arguments. No
standard command looks at it (`Standard.keywordFree`), and where none does,
the failure is the only difference (`Session.abbreviation_changes_nothing`).
-/

namespace NtpQuery

/-- **The failure of a command line with this keyword**: a missing argument
is reported under the keyword as it was typed. -/
def Failure.typed (keyword : String) : Failure → Failure
  | tooFewArguments _ => tooFewArguments keyword
  | f => f

/-- **A handler that does not look at the keyword.** -/
def Handler.KeywordFree (h : Handler) : Prop :=
  ∀ (keyword keyword' : String) (arguments : List Argument),
    h ⟨keyword, arguments⟩ = h ⟨keyword', arguments⟩

/-- No standard command looks at the keyword. -/
theorem Standard.keywordFree {c : Command Handler}
    (hc : c ∈ Standard.tables.commands) : c.action.KeywordFree := by
  have hall : ∀ c ∈ Standard.tables.commands, c.action.KeywordFree := by
    simp only [Tables.commands, tables, core, extended, List.cons_append,
      List.nil_append, List.forall_mem_cons, List.not_mem_nil,
      false_implies, implies_true, and_true]
    -- each looks at the arguments alone
    refine ⟨?_, ?_, ?_, ?_, ?_, ?_, ?_, ?_, ?_, ?_, ?_, ?_, ?_, ?_, ?_, ?_,
      ?_, ?_, ?_, ?_, ?_, ?_, ?_, ?_, ?_⟩ <;> exact fun _ _ _ => rfl
  exact hall c hc

namespace Coercion

variable {κ : Type} [Surroundings κ]

/-- A failure to read a word does not mention the keyword. -/
theorem typed_of_ofWord {raw : String} {e : Failure} (h : e.OfWord raw)
    (keyword : String) : e.typed keyword = e := by
  cases e with
  | tooFewArguments => exact h.elim
  | _ => rfl

/-- **The words behind two keywords** are read alike. -/
theorem coerceAll_typed (keyword name : String) (slots : List Slot)
    (raws : List String) (k : κ) :
    coerceAll keyword slots raws k
      = ((coerceAll name slots raws k).1.mapError (·.typed keyword),
        (coerceAll name slots raws k).2) := by
  induction slots generalizing raws k with
  | nil => rfl
  | cons slot slots ih =>
    cases raws with
    | nil =>
      unfold coerceAll
      split <;> rfl
    | cons raw raws =>
      unfold coerceAll
      rcases hfirst : coerce slot.kind raw k with ⟨e | a, next⟩
      · have hword : e.OfWord raw :=
          ofWord_of_coerce (congrArg Prod.fst hfirst)
        dsimp only [Except.mapError]
        rw [typed_of_ofWord hword]
      · dsimp only
        rw [ih]
        rcases coerceAll name slots raws next with ⟨_ | _, _⟩ <;> rfl

/-- So are two command lines that differ in their keywords. -/
theorem invocation_typed (keyword name : String) (slots : List Slot)
    (raws : List String) (k : κ) :
    (∃ e next, invocation name slots raws k = (.error e, next)
        ∧ invocation keyword slots raws k = (.error (e.typed keyword), next))
      ∨ ∃ arguments next,
        invocation name slots raws k = (.ok ⟨name, arguments⟩, next)
          ∧ invocation keyword slots raws k
            = (.ok ⟨keyword, arguments⟩, next) := by
  unfold invocation
  rw [coerceAll_typed keyword name]
  rcases coerceAll name (slots.take maxSlots) raws k with
    ⟨e | arguments, next⟩
  · exact Or.inl ⟨e, next, rfl, rfl⟩
  · exact Or.inr ⟨arguments, next, rfl, rfl⟩

end Coercion

namespace Run

variable {τ ω : Type} [Transport τ] [Workspace ω]

/-- **A command that does not look at its keyword** does the same under
two keywords. -/
theorem invoke_typed {c : Command Handler} (hc : c.action.KeywordFree)
    (catalogue : Tables Unit) (keyword name : String) (raws : List String)
    (r : Run τ ω) :
    r.invoke catalogue c keyword raws
      = ((r.invoke catalogue c name raws).1.mapError (·.typed keyword),
        (r.invoke catalogue c name raws).2) := by
  unfold invoke
  rcases Coercion.invocation_typed keyword name c.slots raws r with
    ⟨e, next, hname, hkeyword⟩ | ⟨arguments, next, hname, hkeyword⟩
  · rw [hname, hkeyword]
    rfl
  · rw [hname, hkeyword]
    dsimp only
    rw [hc keyword name]
    rcases next.perform catalogue (c.action ⟨name, arguments⟩) with
      ⟨_ | _, _⟩ <;> rfl

end Run

namespace Session

variable {τ : Type} [Transport τ] {s : Session τ} {keyword : String}
variable {c : Command Handler}

/-- **A command line under a keyword** that selects the same command as the
name does. -/
theorem run_typed (hkeyword : s.tables.resolve keyword = some c)
    (hname : s.tables.resolve c.keyword = some c)
    (hc : c.action.KeywordFree) (w : World) (raws : List String) :
    let e := s.run w (keyword :: raws)
    let e' := s.run w (c.keyword :: raws)
    e.result = e'.result.mapError (·.typed keyword)
      ∧ e.output = e'.output ∧ e.reentrant = e'.reentrant
      ∧ e.session = e'.session := by
  dsimp only
  cases hready : s.isReady with
  | false =>
    rw [run_of_not_ready hready, run_of_not_ready hready]
    exact ⟨rfl, rfl, rfl, rfl⟩
  | true =>
    obtain ⟨hopened, buffer, hbuffer⟩ := exists_buffer_of_ready hready
    rw [run_cons hopened hbuffer, run_cons hopened hbuffer]
    unfold Run.dispatch
    rw [hkeyword, hname]
    dsimp only
    rw [Run.invoke_typed hc _ keyword c.keyword]
    exact ⟨rfl, rfl, rfl, rfl⟩

omit [Transport τ] in
/-- Of two failures that are recorded, the second counts. -/
theorem record_record_mapError {α : Type} (s : Session τ)
    (result : Except Failure α) (f : Failure → Failure) :
    s.record (result.mapError f)
      = (s.record result).record (result.mapError f) := by
  cases result <;> rfl

/-- **Abbreviating a command changes nothing.** Whatever lies between a
keyword and the name of the command that it selects selects that command as
well. And a command line with the keyword is the same as one with the name,
in every session whose commands do not look at their keyword, as the
standard commands do not: it writes the same, makes the same calls on its
session, and leaves the same session, with the same client and all that its
transport has on record. It ends alike, except that a missing argument is
reported, and remembered, under the keyword as it was typed. -/
theorem abbreviation_changes_nothing
    (hkeyword : s.tables.resolve keyword = some c) :
    (∀ longer : String, keyword.toList <+: longer.toList →
        longer.toList <+: c.keyword.toList →
        s.tables.resolve longer = some c)
      ∧ ((s.tables = Standard.tables
          ∨ ∀ d ∈ s.tables.commands, d.action.KeywordFree) →
        ∀ (w : World) (raws : List String) (out : Bytes),
          let e := s.execute w (keyword :: raws) out
          let e' := s.execute w (c.keyword :: raws) out
          e.result = e'.result.mapError (·.typed keyword)
            ∧ (∀ name, e.result = .error (.tooFewArguments name) →
              name = keyword)
            ∧ e.output = e'.output ∧ e.reentrant = e'.reentrant
            ∧ e.session = e'.session.record e.result) := by
  have hbegins : keyword.toList <+: c.keyword.toList :=
    (Tables.resolve_eq_some_iff.mp hkeyword).2.1
  refine ⟨fun longer => Tables.resolve_of_longer hkeyword,
    fun htables w raws out => ?_⟩
  have hname : s.tables.resolve c.keyword = some c :=
    Tables.resolve_of_longer hkeyword hbegins List.prefix_rfl
  have hc : c.action.KeywordFree := by
    have hmem := Tables.mem_commands_of_resolve hkeyword
    rcases htables with hstandard | hall
    · exact Standard.keywordFree (hstandard ▸ hmem)
    · exact hall c hmem
  obtain ⟨hresult, houtput, hreentrant, hsession⟩ :=
    run_typed hkeyword hname hc w raws
  intro e e'
  refine ⟨hresult, fun name hmissing => ?_, congrArg (fill _) houtput,
    hreentrant, ?_⟩
  · -- what is reported is reported under the keyword
    rw [show e.result = _ from hresult] at hmissing
    cases hfailed : (s.run w (c.keyword :: raws)).result with
    | ok _ =>
      rw [hfailed] at hmissing
      exact nomatch hmissing
    | error f =>
      rw [hfailed] at hmissing
      have htyped : f.typed keyword = .tooFewArguments name :=
        Except.error.inj hmissing
      cases f with
      | tooFewArguments => exact (Failure.tooFewArguments.inj htyped).symm
      | _ => exact nomatch htyped
  · show (s.run w (keyword :: raws)).session.record
      (s.run w (keyword :: raws)).result = e'.session.record e.result
    rw [show e.result = (s.run w (keyword :: raws)).result from rfl,
      hresult, hsession]
    exact record_record_mapError _ _ _

/-- A command that needs an association is told apart from its
abbreviation by what it says is missing, and by nothing else. -/
theorem abbreviation_changes_nothing_pstatus :
    let w : World := ⟨0, fun _ => [], .files 8, fun _ => true⟩
    let closed : Session (Exchange Script) :=
      .new {} ⟨⟨[]⟩, []⟩ Standard.tables
    let s := (closed.create w 64).2
    let e := s.execute w ["ps"] [1, 2]
    let e' := s.execute w ["pstatus"] [1, 2]
    s.tables.resolve "psta" = s.tables.resolve "ps"
      ∧ e.result = .error (.tooFewArguments "ps")
      ∧ e'.result = .error (.tooFewArguments "pstatus")
      ∧ e.output = e'.output ∧ e.session.client = e'.session.client := by
  intro w closed s e e'
  have htables : s.tables = Standard.tables :=
    tables_perform closed (.call w (.create 64))
  have hresolve : s.tables.resolve "ps" = some Standard.extended[8] := by
    rw [htables]
    rfl
  obtain ⟨hlonger, hsame⟩ := abbreviation_changes_nothing hresolve
  obtain ⟨hresult, -, houtput, -, hsession⟩ :=
    hsame (Or.inl htables) w [] [1, 2]
  have hname : e'.result = .error (.tooFewArguments "pstatus") :=
    Failure.of?_eq_some_iff.mp (by decide +kernel)
  refine ⟨(hlonger "psta" (by decide) (by decide)).trans hresolve.symm,
    hresult.trans ?_, hname, houtput, ?_⟩
  · exact congrArg (Except.mapError (·.typed "ps")) hname
  · exact (congrArg Session.client hsession).trans (record_frame _ _).1

end Session

end NtpQuery
