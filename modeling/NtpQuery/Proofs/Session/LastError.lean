import NtpQuery.Net.Script
import NtpQuery.Proofs.Session.Early
import NtpQuery.Proofs.Session.Quiet
import NtpQuery.Proofs.Session.Reentry

/-!
# The most recent failure

A session remembers the most recent failure of its operations. The
operations of a history are put down in a log in the order in which they
return (`Session.log`): those that a running command asks for come before
the command line that they are part of, which returns last.

What is put down for a command line are all the calls that its command
makes on the session, and nothing else (`Session.reentrant_run_eq`).

The record is that of the last entry of the log that has failed
(`Returned.latest`), at the end of every history and at every point of
every command line in between (`Session.lastError_is_latest`). So a failure
is recorded when it is returned and not earlier, and no success clears the
record.
-/

namespace NtpQuery

/-- **An operation that has returned.** -/
structure Returned where
  /-- The operation. -/
  call : SessionCall
  /-- What it returned. -/
  answer : call.Answer
  /-- Whether it was asked for by the command that the session was
  running. -/
  inside : Bool

namespace Returned

/-- **How the operation failed**, if it did. A running command cannot close
its session, but closing returns nothing that would say so. -/
def failure? : Returned → Option Failure
  | ⟨.destroy, _, true⟩ => some .busy
  | ⟨c, answer, _⟩ => c.told answer

/-- The record that the operation gave, if it was to ask for the most recent
failure. -/
def recalled? : Returned → Option ErrorRecord
  | ⟨.lastError, record, _⟩ => some record
  | _ => none

/-- The operations that a running command has asked for. -/
def fromInside (calls : List SessionCall.Record) : List Returned :=
  calls.map fun x => ⟨x.1, x.2, true⟩

/-- **The record of the last failure in a log.** -/
def latest (log : List Returned) : ErrorRecord :=
  ((log.filterMap failure?).getLast?.map ErrorRecord.ofFailure).getD .initial

/-- The last entry of a log counts if it has failed. -/
theorem latest_concat (log : List Returned) (x : Returned) :
    latest (log ++ [x])
      = (x.failure?.map ErrorRecord.ofFailure).getD (latest log) := by
  unfold latest
  rw [List.filterMap_append, List.getLast?_append]
  cases hx : x.failure? with
  | none =>
    rw [List.filterMap_cons_none hx]
    rfl
  | some f =>
    rw [List.filterMap_cons_some hx]
    rfl

/-- What a running command asks for counts as failed just as it is refused
by its session. -/
theorem failure?_fromInside (last : ErrorRecord) (c : SessionCall) :
    failure? ⟨c, c.answerBusy last, true⟩ = c.busyFailure := by
  cases c with
  | execute argv out => cases argv <;> rfl
  | _ => rfl

/-- **A record that goes with a log.** -/
structure Remembered (log : List Returned) (last : ErrorRecord) : Prop where
  /-- It is the record of the last failure. -/
  latest : last = latest log
  /-- So was each record that has been asked for, at the time. -/
  recalled : ∀ before x, before ++ [x] <+: log →
    ∀ record ∈ x.recalled?, record = Returned.latest before

namespace Remembered

/-- Nothing has failed at first. -/
theorem nil : Remembered [] .initial where
  latest := rfl
  recalled _ _ h := absurd h (by simp)

/-- Nothing more has returned. -/
theorem append_nil {log : List Returned} {last : ErrorRecord}
    (h : Remembered log last) : Remembered (log ++ []) last :=
  (List.append_nil log).symm ▸ h

/-- **One more operation**: the record changes if it has failed, and only
then. -/
theorem concat {log : List Returned} {last : ErrorRecord}
    (h : Remembered log last) {x : Returned}
    (hx : ∀ record ∈ x.recalled?, record = last) :
    Remembered (log ++ [x])
      ((x.failure?.map ErrorRecord.ofFailure).getD last) where
  latest := by rw [latest_concat, ← h.latest]
  recalled before y hprefix record hrecord := by
    rcases List.prefix_concat_iff.mp hprefix with heq | hprefix
    · obtain ⟨rfl, hsame⟩ := List.append_inj' heq rfl
      obtain rfl := List.singleton_inj.mp hsame
      exact (hx record hrecord).trans h.latest
    · exact h.recalled before y hprefix record hrecord

/-- **A call of a running command** is one more operation. -/
theorem call {log : List Returned} (calls : List SessionCall.Record)
    (last : ErrorRecord) (c : SessionCall)
    (h : Remembered (log ++ fromInside calls) last) :
    Remembered (log ++ fromInside (calls ++ [⟨c, c.answerBusy last⟩]))
      ((c.busyFailure.map ErrorRecord.ofFailure).getD last) := by
  have hmore : log ++ fromInside (calls ++ [⟨c, c.answerBusy last⟩])
      = log ++ fromInside calls ++ [⟨c, c.answerBusy last, true⟩] := by
    rw [List.append_assoc]
    exact congrArg (log ++ ·) List.map_append
  rw [hmore, ← failure?_fromInside last c]
  refine h.concat fun record hrecord => ?_
  cases c with
  | lastError => exact (Option.some.inj hrecord).symm
  | _ => exact nomatch hrecord

end Remembered

end Returned

namespace Run

variable {τ ω : Type} [Transport τ] [Workspace ω]

/-- The operation that a call of a routine is, with what it returns, if it
is one on the session. -/
def asked? (c : CommandCall) (r : Run τ ω) : Option SessionCall.Record :=
  match c with
  | .session c => some ⟨c, c.answerBusy r.lastError⟩
  | _ => none

/-- Each of them is put down when it is made. -/
theorem reentrant_answer_eq (catalogue : Tables Unit) (c : CommandCall)
    (r : Run τ ω) :
    (answer catalogue c r).2.reentrant
      = r.reentrant ++ (asked? c r).toList := by
  cases c with
  | session c => rfl
  | _ => exact (List.append_nil _).symm

end Run

namespace Session

open Returned (Remembered fromInside)

variable {τ : Type} [Transport τ]

/-- **The points of a command line** at which its command does something:
each call that the command makes, with the run so far. -/
def points (w : World) (argv : List String) (s : Session τ) :
    List (CommandCall × Run τ Buffer) :=
  match s.reading w argv with
  | some (c, .ok i, account) =>
    Program.calls (Run.answer (s.tables.map fun _ => ())) (c.action i).run
      account.now
  | _ => []

/-- The operations on the session among some points of a command line. -/
def asked (points : List (CommandCall × Run τ Buffer)) :
    List SessionCall.Record :=
  points.filterMap fun x => Run.asked? x.1 x.2

/-- Nothing has been put down when the arguments have been read. -/
theorem reentrant_of_reading {s : Session τ} {w : World}
    {argv : List String} {c : Command Handler}
    {read : Except Failure Invocation} {account : Noted (Run τ Buffer)}
    (h : s.reading w argv = some (c, read, account)) :
    account.now.reentrant = [] :=
  keeps_reading (I := fun r => r.reentrant = [])
    (fun r hr => (Run.reentrant_refreshForArgument r).trans hr)
    (fun _ => rfl) h

/-- **What a command line puts down** are the operations on the session that
its command asks for, all of them and in their order. -/
theorem reentrant_run_eq (s : Session τ) (w : World) (argv : List String) :
    (s.run w argv).reentrant = asked (s.points w argv) := by
  unfold points
  cases hreading : s.reading w argv with
  | none => exact (run_of_reading_none hreading).2.1
  | some x =>
    obtain ⟨c, read, account⟩ := x
    have hnone := reentrant_of_reading hreading
    obtain ⟨-, hfailed, hperformed⟩ := run_of_reading_some hreading
    cases read with
    | error e => exact (hfailed e rfl).2.2.2.trans hnone
    | ok i =>
      rw [(hperformed i rfl).2.2]
      refine (Program.log_run Run.reentrant Run.asked?
        (Run.reentrant_answer_eq _) (c.action i).run account.now).trans ?_
      rw [hnone]
      rfl

/-- At each point of a command line those have been put down that came
before. -/
theorem reentrant_of_points {s : Session τ} {w : World} {argv : List String}
    {earlier : List (CommandCall × Run τ Buffer)}
    {x : CommandCall × Run τ Buffer}
    (h : earlier ++ [x] <+: s.points w argv) :
    x.2.reentrant = asked earlier := by
  unfold points at h
  split at h
  next c i account hreading =>
    rw [Program.log_calls Run.reentrant Run.asked?
      (Run.reentrant_answer_eq _) _ h, reentrant_of_reading hreading]
    rfl
  next => exact absurd h (by simp)

/-- The operations that return before an operation does: those that its
command asks for, if it is a command line. -/
def within (w : World) (c : SessionCall) (s : Session τ) : List Returned :=
  match c with
  | .execute argv _ => fromInside (s.run w argv).reentrant
  | _ => []

/-- **The log of a step.** -/
def returns (s : Session τ) : Step τ → List Returned
  | .call w c => s.within w c ++ [⟨c, (s.answer w c).1, false⟩]
  | .incident _ => []

/-- **The log of a history**: its operations, in the order in which they
return. -/
def log : List (Step τ) → Session τ → List Returned
  | [], _ => []
  | step :: steps, s => s.returns step ++ log steps (s.perform step)

variable {s : Session τ} {before : List Returned}

/-- The record is up to date at every point of a command line. -/
theorem remembered_points (h : Remembered before s.lastError) (w : World)
    (argv : List String) :
    ∀ x ∈ s.points w argv,
      Remembered (before ++ fromInside x.2.reentrant) x.2.lastError := by
  have hkeep := fun catalogue c (r : Run τ Buffer) => Run.keeps_answer
    (r := r)
    (I := fun calls last => Remembered (before ++ fromInside calls) last)
    Remembered.call catalogue c
  intro x hx
  unfold points at hx
  split at hx
  next c i account hreading =>
    have hstart : ∀ buffer : Buffer, Remembered
        (before ++ fromInside (s.start w buffer).reentrant)
        (s.start w buffer).lastError :=
      fun _ => h.append_nil
    have hread := keeps_reading
      (I := fun r => Remembered (before ++ fromInside r.reentrant)
        r.lastError)
      (fun _ hr => Run.keeps_refreshForArgument hkeep hr) hstart hreading
    exact Program.keeps_calls (hkeep (s.tables.map fun _ => ())) _ hread x hx
  next => exact absurd hx List.not_mem_nil

/-- The record is up to date when a command line has ended. -/
theorem remembered_run (h : Remembered before s.lastError) (w : World)
    (argv : List String) :
    Remembered (before ++ fromInside (s.run w argv).reentrant)
      (s.run w argv).session.lastError :=
  keeps_run
    (I := fun calls last => Remembered (before ++ fromInside calls) last)
    Remembered.call h.append_nil w argv

/-- **Every operation** keeps it up to date. -/
theorem remembered_answer (h : Remembered before s.lastError) (w : World)
    (c : SessionCall) :
    Remembered (before ++ s.returns (.call w c))
      (s.answer w c).2.lastError := by
  rw [show s.returns (.call w c)
    = s.within w c ++ [⟨c, (s.answer w c).1, false⟩] from rfl,
    ← List.append_assoc]
  cases c with
  | isReady => exact h.append_nil.concat nofun
  | lastError =>
    exact h.append_nil.concat fun _ hrecord => (Option.some.inj hrecord).symm
  | create capacity =>
    have hlast : (s.answer w (.create capacity)).2.lastError
        = ((Failure.of? (s.create w capacity).1).map
          ErrorRecord.ofFailure).getD s.lastError := by
      show (s.create w capacity).2.lastError = _
      rcases s.create_cases w capacity with
        ⟨-, heq⟩ | ⟨-, e, -, heq⟩ | ⟨-, b, -, heq⟩
      · rw [heq]
        rfl
      · rw [heq]
        rfl
      · rw [heq]
        rfl
    rw [hlast]
    exact h.append_nil.concat nofun
  | destroy =>
    have hlast : (s.answer w .destroy).2.lastError = s.lastError := by
      show s.destroy.lastError = s.lastError
      cases hopened : s.opened with
      | true => rw [destroy_of_opened hopened]
      | false => rw [destroy_of_closed hopened]
    rw [hlast]
    exact h.append_nil.concat nofun
  | configure d => exact h.append_nil.concat nofun
  | execute argv out =>
    have hlast : (s.answer w (.execute argv out)).2.lastError
        = ((Failure.of? (s.run w argv).result).map
          ErrorRecord.ofFailure).getD (s.run w argv).session.lastError := by
      show ((s.run w argv).session.record (s.run w argv).result).lastError
        = _
      cases (s.run w argv).result <;> rfl
    rw [hlast]
    exact (remembered_run h w argv).concat nofun

/-- So does every step. -/
theorem remembered_perform (h : Remembered before s.lastError)
    (step : Step τ) :
    Remembered (before ++ s.returns step) (s.perform step).lastError := by
  cases step with
  | call w c => exact remembered_answer h w c
  | incident change =>
    obtain ⟨t, heq⟩ := s.perform_incident change
    rw [heq]
    exact h.append_nil

/-- **A history** keeps the record up to date. -/
theorem remembered_performAll (h : Remembered before s.lastError)
    (steps : List (Step τ)) :
    Remembered (before ++ log steps s) (s.performAll steps).lastError := by
  induction steps generalizing s before with
  | nil => exact h.append_nil
  | cons step steps ih =>
    have hrest := ih (remembered_perform h step)
    rwa [List.append_assoc] at hrest

/-- **What an operation leaves on record**: its failure, and if it has not
failed, the last failure among those that returned before it. -/
theorem lastError_answer (h : Remembered before s.lastError) (w : World)
    (c : SessionCall) :
    (s.answer w c).2.lastError
      = ((c.told (s.answer w c).1).map ErrorRecord.ofFailure).getD
        (Returned.latest (before ++ s.within w c)) := by
  rw [(remembered_answer h w c).latest, show s.returns (.call w c)
    = s.within w c ++ [⟨c, (s.answer w c).1, false⟩] from rfl,
    ← List.append_assoc, Returned.latest_concat]
  cases c <;> rfl

/-- **The session remembers the most recent failure.** After any history
the record is that of the last operation in the log that has failed, and the
initial one if none has; whoever asked for it on the way was given the
record of the last failure until then. The same holds at every point of
every command line that comes next, with the operations that its command has
asked for by then; the operations within a command line are all those that
its command asks for. What fails is on record when it returns, over whatever
was recorded within it; what succeeds leaves the record as it was when the
last operation within it had returned. Only a command line has operations
within it. -/
theorem lastError_is_latest (d : Defaults) (t : τ) (tables : Tables Handler)
    (steps : List (Step τ)) :
    let s := (new d t tables).performAll steps
    let log := log steps (new d t tables)
    s.lastError = Returned.latest log
      ∧ (∀ before x, before ++ [x] <+: log → ∀ record ∈ x.recalled?,
        record = Returned.latest before)
      ∧ (∀ w argv, ∀ x ∈ s.points w argv, x.2.lastError
        = Returned.latest (log ++ fromInside x.2.reentrant))
      ∧ (∀ w argv, (s.run w argv).reentrant = asked (s.points w argv)
        ∧ ∀ earlier x, earlier ++ [x] <+: s.points w argv →
          x.2.reentrant = asked earlier)
      ∧ ∀ w c,
        let answer := s.answer w c
        (∀ f, c.told answer.1 = some f →
            answer.2.lastError = .ofFailure f)
          ∧ (c.told answer.1 = none → answer.2.lastError
            = Returned.latest (log ++ s.within w c))
          ∧ ((∀ argv out, c ≠ .execute argv out) → c.told answer.1 = none →
            answer.2.lastError = s.lastError) := by
  intro s log
  have hs : Remembered log s.lastError :=
    remembered_performAll (s := new d t tables) .nil steps
  refine ⟨hs.latest, hs.recalled,
    fun w argv x hx => (remembered_points hs w argv x hx).latest,
    fun w argv => ⟨reentrant_run_eq s w argv,
      fun _ _ hearlier => reentrant_of_points hearlier⟩,
    fun w c => ?_⟩
  have hanswer := lastError_answer hs w c
  refine ⟨fun f hf => ?_, fun hok => ?_, fun hc hok => ?_⟩
  · rwa [hf] at hanswer
  · rwa [hok] at hanswer
  · rw [hok] at hanswer
    have hwithin : s.within w c = [] := by
      cases c with
      | execute argv out => exact absurd rfl (hc argv out)
      | _ => rfl
    rw [hwithin, List.append_nil, ← hs.latest] at hanswer
    exact hanswer

/-- A command asks for the most recent failure, tries to close the session
and asks again: first it is told of a command line before it, and then that
the session is busy. Its own success leaves that on record. Another command
is refused as well and then fails itself, and that is what is on record
after it. -/
theorem lastError_is_latest_restless :
    let w : World := ⟨0, fun _ => [], .files 8, fun _ => true⟩
    let asks := Command.restless [.lastError, .destroy, .lastError]
    let fails : Command Handler := { asks with
      keyword := "fails"
      action := fun _ => do
        let _ ← Routine.ask (.session (.configure {}))
        throw .timeout }
    let steps : List (Step (Exchange Script)) :=
      [.call w (.create 64), .call w (.execute ["nonsense"] []),
        .call w (.execute ["restless"] [])]
    let closed : Session (Exchange Script) :=
      .new {} ⟨⟨[]⟩, []⟩ ⟨[asks, fails], []⟩
    let s := closed.performAll steps
    (log steps closed).filterMap Returned.recalled?
        = [.ofFailure (.unknownCommand "nonsense"), .ofFailure .busy]
      ∧ s.lastError = .ofFailure .busy
      ∧ (s.run w ["fails"]).reentrant.map Sigma.fst = [.configure {}]
      ∧ (s.answer w (.execute ["fails"] [])).2.lastError
        = .ofFailure (.commandFailed "fails" .timeout) := by
  intro w asks fails steps closed s
  obtain ⟨hlatest, -, -, hasked, hanswer⟩ := lastError_is_latest {}
    (⟨⟨[]⟩, []⟩ : Exchange Script) ⟨[asks, fails], []⟩ steps
  have hlast : s.lastError = .ofFailure .busy :=
    hlatest.trans (by decide +kernel)
  have hcalls : (s.run w ["fails"]).reentrant.map Sigma.fst
      = [.configure {}] := by
    rw [(hasked w ["fails"]).1]
    decide +kernel
  refine ⟨by decide +kernel, hlast, hcalls, ?_⟩
  exact (hanswer w (.execute ["fails"] [])).1 _ (by decide +kernel)

end Session

end NtpQuery
