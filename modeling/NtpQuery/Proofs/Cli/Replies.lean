import NtpQuery.Proofs.Cli.Input
import NtpQuery.Proofs.Terminal

/-!
# Replies to command lines

Running command lines one after the other, whatever comes of each, gives
as many replies (`replyAll`). The program does just that with the commands
of its arguments and with those of its input, and the texts that it writes
are those of the replies. Only what it makes of their statuses differs
(`followArguments_eq`, `followInput_eq`).

What has been run is read off the session. Each command line that is not
blank carries out its operation there, and nothing else is carried out
(`operations_replyAll`).
-/

namespace NtpQuery

/-- Whether an operation only asks about the session. -/
def SessionCall.isQuestion : SessionCall → Bool
  | isReady | lastError => true
  | create _ | destroy | configure _ | execute _ _ => false

namespace Session

variable {τ : Type} [Transport τ] {α β : Type}

/-- One program after another. -/
theorem runProgram_bind (w : World) (p : SessionProgram α)
    (f : α → SessionProgram β) (s : Session τ) :
    s.runProgram w (p >>= f)
      = (s.runProgram w p).2.runProgram w (f (s.runProgram w p).1) :=
  Program.run_bind _ p f s

/-- **The operations that a program carries out** in a session, oldest
first. Questions are not counted. -/
def operations (w : World) (p : SessionProgram α) (s : Session τ) :
    List SessionCall :=
  ((p.calls (answer w) s).map (·.1)).filter (! ·.isQuestion)

/-- One program after another carries out the operations of both. -/
theorem operations_bind (w : World) (p : SessionProgram α)
    (f : α → SessionProgram β) (s : Session τ) :
    s.operations w (p >>= f) = s.operations w p
      ++ (s.runProgram w p).2.operations w (f (s.runProgram w p).1) := by
  unfold operations runProgram
  rw [Program.calls_bind, List.map_append, List.filter_append]

/-- A program that is done carries out nothing more. -/
@[simp] theorem operations_pure (w : World) (a : α) (s : Session τ) :
    s.operations w (pure a) = [] := rfl

end Session

namespace Cli

open Text

/-- **The words of a command line.** -/
def argv (line : List Char) : List String :=
  (words line).map String.ofList

/-- **Running command lines one after the other**, whatever comes of
each. -/
def replyAll (sizes : Sizes) :
    List (List String) → SessionProgram (List Terminal.Reply)
  | [] => return []
  | argv :: rest => do
    let r ← Terminal.run sizes argv
    let rs ← replyAll sizes rest
    return r :: rs

/-- The texts of the replies to command lines that succeeded, one behind the
other. -/
def successes (rs : List Terminal.Reply) : String :=
  String.join ((rs.filter (·.status = 0)).map (·.output))

/-- The texts of the replies to command lines that failed. -/
def failures (rs : List Terminal.Reply) : String :=
  String.join ((rs.filter (·.status ≠ 0)).map (·.output))

/-- **What replies leave behind**: their texts, and a status. -/
def Console.after (c : Console) (rs : List Terminal.Reply) (status : Nat) :
    Console where
  stdout := c.stdout ++ successes rs
  stderr := c.stderr ++ failures rs
  status := status

/-- The last status of a failure, if there was one. -/
def lastFailure (status : Nat) (rs : List Terminal.Reply) : Nat :=
  rs.foldl (fun status r => if r.status = 0 then status else r.status) status

/-- The last status. -/
def lastStatus (status : Nat) (rs : List Terminal.Reply) : Nat :=
  rs.foldl (fun _ r => r.status) status

/-- Showing a reply leaves the status alone. -/
@[simp] theorem Console.status_display (c : Console) (r : Terminal.Reply) :
    (c.display r).status = c.status := by
  unfold display
  split_ifs <;> rfl

/-- No reply leaves nothing behind. -/
theorem Console.after_nil (c : Console) : c.after [] c.status = c := by
  simp [after, successes, failures]

/-- A reply that is shown is the first of those that leave something
behind. -/
theorem Console.after_cons (c : Console) (r : Terminal.Reply)
    (rs : List Terminal.Reply) (n status : Nat) :
    Console.after { c.display r with status := n } rs status
      = c.after (r :: rs) status := by
  unfold display after successes failures
  by_cases h : r.status = 0
  · simp [h, String.append_assoc]
  · simp [h, String.append_assoc]

theorem lastFailure_cons (status : Nat) (r : Terminal.Reply)
    (rs : List Terminal.Reply) :
    lastFailure status (r :: rs)
      = lastFailure (if r.status = 0 then status else r.status) rs := rfl

theorem lastStatus_nil (status : Nat) : lastStatus status [] = status := rfl

theorem lastStatus_cons (status : Nat) (r : Terminal.Reply)
    (rs : List Terminal.Reply) :
    lastStatus status (r :: rs) = lastStatus r.status rs := rfl

/-- **The last failure is zero** exactly if nothing has failed. -/
theorem lastFailure_eq_zero_iff (status : Nat) (rs : List Terminal.Reply) :
    lastFailure status rs = 0
      ↔ status = 0 ∧ ∀ r ∈ rs, r.status = 0 := by
  induction rs generalizing status with
  | nil => simp [lastFailure]
  | cons r rs ih =>
    rw [lastFailure_cons, ih, List.forall_mem_cons]
    by_cases h : r.status = 0
    · simp [h]
    · simp [h]

/-- The last status is that of the last reply, if there is one. -/
theorem lastStatus_eq (status : Nat) (rs : List Terminal.Reply) :
    lastStatus status rs = (rs.getLast?.map (·.status)).getD status := by
  induction rs generalizing status with
  | nil => rfl
  | cons r rs ih =>
    refine (ih r.status).trans ?_
    rw [List.getLast?_cons]
    cases rs.getLast? <;> rfl

/-! ## The two ways of running command lines -/

/-- **Running the commands of the arguments** leaves the replies behind, and
the last status of a failure. -/
theorem followArguments_eq (sizes : Sizes) (lines : List String)
    (c : Console) :
    followArguments sizes lines c = do
      let rs ← replyAll sizes (lines.map fun line => argv line.toList)
      return c.after rs (lastFailure c.status rs) := by
  induction lines generalizing c with
  | nil => simp [followArguments, replyAll, Console.after_nil, lastFailure]
  | cons line rest ih =>
    unfold followArguments
    rw [List.map_cons, replyAll]
    simp only [bind_assoc, pure_bind, ih, Console.after_cons,
      Console.status_display, lastFailure_cons]
    rfl

/-- **Running the commands of the input** leaves the replies behind, and the
last status. -/
theorem followInput_eq (sizes : Sizes)
    {lines : List (Option (List Char))} (h : Legible lines) (c : Console) :
    followInput sizes (lines.map Request.ofText) c = do
      let rs ← replyAll sizes ((commands lines).map argv)
      return (true, c.after rs (lastStatus c.status rs)) := by
  induction lines generalizing c with
  | nil =>
    rw [List.map_nil, followInput, commands_nil, List.map_nil, replyAll,
      pure_bind, lastStatus_nil, Console.after_nil]
  | cons line rest ih =>
    cases line with
    | none => exact absurd h not_legible_none
    | some text =>
      rw [List.map_cons]
      by_cases hend : EndsProgram text
      · rw [Request.ofText_of_endsProgram hend, commands_of_endsProgram hend,
          followInput, List.map_nil, replyAll, pure_bind, lastStatus_nil,
          Console.after_nil]
      by_cases hblank : text = []
      · subst hblank
        rw [commands_blank]
        exact ih ((legible_cons hend).mp h) c
      · rw [Request.ofText_command hblank hend, commands_cons hblank hend,
          followInput, List.map_cons, replyAll]
        simp only [bind_assoc, pure_bind, ih ((legible_cons hend).mp h),
          Console.after_cons, lastStatus_cons]
        rfl

/-- The program reads its input in the same lines. -/
theorem followInput_inputLines (sizes : Sizes) (stdin : Bytes) :
    followInput sizes ((inputLines stdin).map Request.ofLine)
      = followInput sizes ((linesOf stdin).map Request.ofText) := by
  have hlines : (linesOf stdin).map Request.ofText
      = (stdin.splitOn 10).map Request.ofLine := by
    unfold linesOf
    rw [List.map_map]
    exact List.map_congr_left fun line _ => (Request.ofLine_eq line).symm
  rw [hlines]
  clear hlines
  induction stdin using lines_induction (10 : UInt8) with
  | last line h =>
    rw [List.splitOn_eq_singleton h, inputLines_of_line h]
    cases line with
    | nil =>
      rw [List.map_singleton, Request.ofLine_nil]
      rfl
    | cons b line => rfl
  | cons line rest h ih =>
    rw [List.splitOn_append_cons_self_of_not_mem h,
      inputLines_append_newline h, List.map_cons, List.map_cons,
      Request.ofLine_withoutReturn]
    funext c
    cases Request.ofLine line with
    | blank => exact congrFun ih c
    | quit => rfl
    | unreadable => rfl
    | command text =>
      rw [followInput, followInput, ih]

/-! ## What is carried out -/

variable {τ : Type} [Transport τ]

/-- **A command line carries out its operation**, if it is not blank, and
nothing else. -/
theorem operations_run (sizes : Sizes) (argv : List String) (w : World)
    (s : Session τ) :
    s.operations w (Terminal.run sizes argv)
      = (Terminal.operation? sizes argv).toList := by
  have hreport : ∀ (c : SessionCall) (f : c.Answer → Except Failure Unit)
      (text : c.Answer → String), c.isQuestion = false →
      s.operations w (do
        let a ← SessionProgram.ask c
        Terminal.report (f a) (text a)) = [c] := by
    intro c f text hc
    have hnone : ∀ (s : Session τ) (result : Except Failure Unit)
        (text : String), s.operations w (Terminal.report result text) = [] := by
      intro s result text
      cases result <;> rfl
    rw [Session.operations_bind, hnone, List.append_nil]
    unfold Session.operations SessionProgram.ask Program.perform
    simp [Program.calls, hc]
  cases argv with
  | nil => rfl
  | cons word raws =>
    unfold Terminal.run Terminal.operation?
    dsimp only
    split_ifs
    · exact hreport (.create sizes.capacity) id _ rfl
    · rfl
    · exact hreport (.execute _ _) (·.1) (fun a => Terminal.shownText a.2) rfl

/-- **Command lines carry out their operations**, one after the other and
every one of them. -/
theorem operations_replyAll (sizes : Sizes) (lines : List (List String))
    (w : World) (s : Session τ) :
    s.operations w (replyAll sizes lines)
      = lines.filterMap (Terminal.operation? sizes) := by
  induction lines generalizing s with
  | nil => rfl
  | cons argv rest ih =>
    rw [replyAll, Session.operations_bind, operations_run,
      Session.operations_bind, ih, Session.operations_pure, List.append_nil]
    cases h : Terminal.operation? sizes argv with
    | none => exact (List.filterMap_cons_none h).symm
    | some c => exact (List.filterMap_cons_some h).symm

end Cli

end NtpQuery
