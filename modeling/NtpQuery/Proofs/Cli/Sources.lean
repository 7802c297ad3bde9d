import NtpQuery.Cli.Program
import NtpQuery.Net.Script
import NtpQuery.Proofs.Cli.Replies
import NtpQuery.Proofs.Session.Lifecycle

/-!
# Commands from the arguments and from the input

The program takes its commands from its arguments, or else from its input,
and goes through them in two different loops. The loops cut commands into
words in different places, end for different reasons and come to different
statuses.

Once the session has been opened and the server chosen, either loop just
runs command lines one after the other and shows the replies, and the
session is closed behind the last (`Outcome.Obeys`). So it makes no
difference to what is run and written where the commands come from
(`sources_agree`). If the program does not get that far, it runs no command
at all.
-/

namespace NtpQuery.Cli

open Text

/-! ## What a run of the program comes to -/

/-- **How the program starts**: it opens its session and chooses the server
if one is given, and it closes the session again if that fails. The answer
is the last reply, if it is to be shown. -/
def start (sizes : Sizes) (host : Option String) :
    SessionProgram Terminal.Reply := do
  let opened ← Terminal.run sizes ["open"]
  if opened.status ≠ 0 then return opened
  else
    match host with
    | none => return ⟨0, ""⟩
    | some name =>
      let selected ← Terminal.run sizes ["host", name]
      if selected.status ≠ 0 then
        SessionProgram.ask .destroy
        return selected
      else return selected

/-- **How the program goes on** from the reply: it shows it and ends there
if that is a failure. Otherwise it runs its commands and closes the
session. -/
def proceed (sizes : Sizes) (o : Options) (stdin : Bytes)
    (r : Terminal.Reply) : SessionProgram Console :=
  if r.status ≠ 0 then
    return { Console.display {} r with status := r.status }
  else do
    let (close, c) ← runCommands sizes o stdin (Console.display {} r)
    if close then
      SessionProgram.ask .destroy
      return c
    else return c

/-- The program starts and goes on. -/
theorem conversation_eq (sizes : Sizes) (o : Options) (stdin : Bytes) :
    conversation sizes o stdin
      = start sizes o.host >>= proceed sizes o stdin := by
  unfold conversation start
  rw [bind_assoc]
  congr 1
  funext opened
  by_cases hopened : opened.status ≠ 0
  · simp only [if_pos hopened, pure_bind, proceed]
  · simp only [if_neg hopened]
    cases o.host with
    | none => rfl
    | some name =>
      simp only [bind_assoc]
      congr 1
      funext selected
      by_cases hselected : selected.status ≠ 0
      · simp only [if_pos hselected]
        exact congrArg (Program.call SessionCall.destroy)
          (funext fun _ => (if_pos hselected).symm)
      · simp only [if_neg hselected, pure_bind, proceed]

/-- It goes no further after a failure. -/
theorem proceed_of_failure {sizes : Sizes} {o : Options} {stdin : Bytes}
    {r : Terminal.Reply} (h : r.status ≠ 0) :
    proceed sizes o stdin r
      = return { stderr := r.output, status := r.status } := by
  unfold proceed Console.display
  rw [if_pos h, if_neg h, String.empty_append]

/-- **After a success it goes through its command lines** and closes the
session. -/
theorem proceed_of_success {sizes : Sizes} {o : Options} {stdin : Bytes}
    {r : Terminal.Reply} {asked : List (List String)}
    {status : List Terminal.Reply → Nat} (h : r.status = 0)
    (hrun : ∀ c : Console, c.status = 0 → runCommands sizes o stdin c = do
      let rs ← replyAll sizes asked
      return (true, c.after rs (status rs))) :
    proceed sizes o stdin r = do
      let rs ← replyAll sizes asked
      SessionProgram.ask .destroy
      return Console.after { stdout := r.output } rs (status rs) := by
  have hdisplay : Console.display {} r = { stdout := r.output } := by
    unfold Console.display
    rw [if_pos h, String.empty_append]
  unfold proceed
  rw [if_neg (not_not_intro h), hdisplay, hrun _ rfl, bind_assoc]
  rfl

/-- **What a run of the program comes to.** -/
structure Outcome (τ : Type) where
  /-- What it leaves behind. -/
  console : Console
  /-- Its session at the end. -/
  session : Session τ
  /-- The operations that it has carried out there, oldest first. -/
  operations : List SessionCall

/-- **Outcomes that differ in the exit status** at most. -/
structure Outcome.Alike {τ : Type} (x y : Outcome τ) : Prop where
  /-- The same has been done in the session, in the same order. -/
  operations : x.operations = y.operations
  /-- The same has been written to standard output, -/
  stdout : x.console.stdout = y.console.stdout
  /-- and to standard error. -/
  stderr : x.console.stderr = y.console.stderr
  /-- The sessions are the same in the end. -/
  session : x.session = y.session

variable {τ : Type} [Transport τ]

/-- What the program comes to with a configuration, its options and an
input. -/
def outcome (w : World) (t : τ) (c : Config) (o : Options) (stdin : Bytes) :
    Outcome τ :=
  let s := Session.new c.client t Standard.tables
  let p := conversation c.sizes o stdin
  { console := (s.runProgram w p).1
    session := (s.runProgram w p).2
    operations := s.operations w p }

/-- The program leaves behind what its conversation does. -/
theorem run_eq_outcome (env : Environment) {arguments : List String}
    {o : Options} {c : Config}
    (h : env.reading arguments = .options o)
    (hconfig : configuration env o = .ok c) (w : World) (t : τ) :
    run w t env arguments = (outcome w t c o env.stdin).console := by
  unfold run outcome
  rw [h]
  dsimp only
  rw [hconfig]

/-- **The start of the program**: the reply, and the session as it is
then. -/
def started (w : World) (t : τ) (c : Config) (host : Option String) :
    Terminal.Reply × Session τ :=
  (Session.new c.client t Standard.tables).runProgram w (start c.sizes host)

/-- **A run is its start and how it goes on.** -/
theorem outcome_eq (w : World) (t : τ) (c : Config) (o : Options)
    (stdin : Bytes) :
    let begun := started w t c o.host
    let rest := proceed c.sizes o stdin begun.1
    outcome w t c o stdin
      = { console := (begun.2.runProgram w rest).1
          session := (begun.2.runProgram w rest).2
          operations := (Session.new c.client t Standard.tables).operations w
            (start c.sizes o.host) ++ begun.2.operations w rest } := by
  unfold outcome
  dsimp only
  rw [conversation_eq, Session.runProgram_bind, Session.operations_bind]
  rfl

/-- The operations of a start that succeeds. -/
def opening (sizes : Sizes) (host : Option String) : List SessionCall :=
  .create sizes.capacity :: host.toList.map fun name =>
    .execute ["host", name] (Bytes.zeros sizes.outputSize)

/-- **A run that has gone through command lines**, from a start on. -/
structure Outcome.Obeys (x : Outcome τ) (w : World) (sizes : Sizes)
    (host : Option String) (begun : Terminal.Reply × Session τ)
    (asked : List (List String)) : Prop where
  /-- Every command line has been run, in order, and the session has been
  closed behind the last. -/
  operations : x.operations = opening sizes host
    ++ asked.filterMap (Terminal.operation? sizes) ++ [.destroy]
  /-- The texts of the successes are on standard output, -/
  stdout : x.console.stdout = begun.1.output
    ++ successes (begun.2.runProgram w (replyAll sizes asked)).1
  /-- and those of the failures on standard error. -/
  stderr : x.console.stderr
    = failures (begun.2.runProgram w (replyAll sizes asked)).1
  /-- The session is as the command lines have left it, and closed. -/
  session : x.session
    = (begun.2.runProgram w (replyAll sizes asked)).2.destroy

/-- Runs that have gone through the same command lines differ in their exit
status at most. -/
theorem Outcome.Obeys.alike {x y : Outcome τ} {w : World} {sizes : Sizes}
    {host : Option String} {begun : Terminal.Reply × Session τ}
    {asked : List (List String)} (hx : x.Obeys w sizes host begun asked)
    (hy : y.Obeys w sizes host begun asked) : x.Alike y where
  operations := hx.operations.trans hy.operations.symm
  stdout := hx.stdout.trans hy.stdout.symm
  stderr := hx.stderr.trans hy.stderr.symm
  session := hx.session.trans hy.session.symm

/-! ## The start -/

section

variable {sizes : Sizes} {host : Option String} {w : World} {s : Session τ}

/-- A start that succeeds has gone all the way. -/
theorem operations_start
    (h : (s.runProgram w (start sizes host)).1.status = 0) :
    s.operations w (start sizes host) = opening sizes host := by
  unfold start at h ⊢
  rw [Session.runProgram_bind] at h
  rw [Session.operations_bind, operations_run]
  by_cases hopened :
      (s.runProgram w (Terminal.run sizes ["open"])).1.status ≠ 0
  · rw [if_pos hopened] at h
    exact absurd h hopened
  · rw [if_neg hopened] at h ⊢
    cases host with
    | none => rfl
    | some name =>
      dsimp only at h ⊢
      rw [Session.runProgram_bind] at h
      rw [Session.operations_bind, operations_run]
      split_ifs at h ⊢ with hselected
      · exact absurd h hselected
      · rfl

/-- A session that cannot be opened stays closed. -/
theorem isReady_open (hclosed : s.opened = false)
    (h : (s.runProgram w (Terminal.run sizes ["open"])).1.status ≠ 0) :
    (s.runProgram w (Terminal.run sizes ["open"])).2.isReady = false := by
  have hrun : Terminal.run sizes ["open"] = (do
      let result ← SessionProgram.ask (.create sizes.capacity)
      Terminal.report result "ntpq: open") := rfl
  have hcreate : s.runProgram w (SessionProgram.ask (.create sizes.capacity))
      = s.create w sizes.capacity := rfl
  rw [hrun, Session.runProgram_bind, hcreate] at h ⊢
  cases hresult : (s.create w sizes.capacity).1 with
  | ok u =>
    rw [hresult] at h
    exact absurd rfl h
  | error e =>
    -- the report of the failure only asks for its text
    show (s.create w sizes.capacity).2.isReady = false
    rw [(Session.create_of_error hresult).1]
    unfold Session.isReady
    rw [hclosed, Bool.false_and]

/-- **A start that fails leaves the session closed.** -/
theorem isReady_start (hclosed : s.opened = false)
    (h : (s.runProgram w (start sizes host)).1.status ≠ 0) :
    (s.runProgram w (start sizes host)).2.isReady = false := by
  unfold start at h ⊢
  rw [Session.runProgram_bind] at h ⊢
  by_cases hopened :
      (s.runProgram w (Terminal.run sizes ["open"])).1.status ≠ 0
  · rw [if_pos hopened]
    exact isReady_open hclosed hopened
  · rw [if_neg hopened] at h ⊢
    cases host with
    | none => exact absurd rfl h
    | some name =>
      dsimp only at h ⊢
      rw [Session.runProgram_bind] at h ⊢
      split_ifs at h ⊢ with hselected
      · exact Session.isReady_destroy _
      · exact absurd h hselected

end

/-! ## What comes after it -/

section

variable {w : World} {t : τ} {c : Config} {o : Options} {stdin : Bytes}

/-- **Command lines are gone through** after a start that has succeeded,
and then the session is closed. -/
theorem outcome_of_started {asked : List (List String)}
    {status : List Terminal.Reply → Nat}
    (h : (started w t c o.host).1.status = 0)
    (hrun : ∀ console : Console, console.status = 0 →
      runCommands c.sizes o stdin console = do
        let rs ← replyAll c.sizes asked
        return (true, console.after rs (status rs))) :
    let begun := started w t c o.host
    (outcome w t c o stdin).Obeys w c.sizes o.host begun asked
      ∧ (outcome w t c o stdin).console.status
        = status (begun.2.runProgram w (replyAll c.sizes asked)).1 := by
  intro begun
  have hoperations : (Session.new c.client t Standard.tables).operations w
      (start c.sizes o.host) = opening c.sizes o.host := operations_start h
  rw [outcome_eq, proceed_of_success h hrun, hoperations]
  refine ⟨⟨?operations, ?stdout, ?stderr, ?session⟩, ?status⟩
  case operations =>
    dsimp only
    rw [Session.operations_bind, operations_replyAll, List.append_assoc]
    rfl
  case stdout => rw [Session.runProgram_bind]; rfl
  case stderr =>
    rw [Session.runProgram_bind]
    exact String.empty_append
  case session => rw [Session.runProgram_bind]; rfl
  case status => rw [Session.runProgram_bind]; rfl

/-- **Nothing is run** after a start that has failed. -/
theorem outcome_of_not_started (o : Options) (stdin : Bytes)
    (h : (started w t c o.host).1.status ≠ 0) :
    let begun := started w t c o.host
    outcome w t c o stdin
      = { console := { stderr := begun.1.output, status := begun.1.status }
          session := begun.2
          operations := (Session.new c.client t Standard.tables).operations w
            (start c.sizes o.host) } := by
  rw [outcome_eq, proceed_of_failure h, Session.operations_pure,
    List.append_nil]
  rfl

/-- Then the session is closed already. -/
theorem isReady_outcome_of_not_started (o : Options) (stdin : Bytes)
    (h : (started w t c o.host).1.status ≠ 0) :
    (outcome w t c o stdin).session.isReady = false := by
  rw [outcome_of_not_started o stdin h]
  exact isReady_start rfl h

/-- **Going through the commands of the arguments.** -/
theorem outcome_of_arguments (o : Options) (stdin : Bytes)
    (h : (started w t c o.host).1.status = 0) (hcommands : o.commands ≠ []) :
    let begun := started w t c o.host
    let asked := o.commands.map fun line => argv line.toList
    (outcome w t c o stdin).Obeys w c.sizes o.host begun asked
      ∧ (outcome w t c o stdin).console.status
        = lastFailure 0 (begun.2.runProgram w (replyAll c.sizes asked)).1 := by
  refine outcome_of_started h fun console hstatus => ?_
  unfold runCommands
  rw [if_neg (mt List.isEmpty_iff.mp hcommands), followArguments_eq, hstatus]
  simp only [bind_assoc, pure_bind]

/-- **Going through the commands of the input.** -/
theorem outcome_of_input (o : Options)
    (h : (started w t c o.host).1.status = 0) (hcommands : o.commands = [])
    (hlegible : Legible (linesOf stdin)) :
    let begun := started w t c o.host
    let asked := (commands (linesOf stdin)).map argv
    (outcome w t c o stdin).Obeys w c.sizes o.host begun asked
      ∧ (outcome w t c o stdin).console.status
        = lastStatus 0 (begun.2.runProgram w (replyAll c.sizes asked)).1 := by
  refine outcome_of_started h fun console hstatus => ?_
  unfold runCommands
  rw [if_pos (List.isEmpty_iff.mpr hcommands), followInput_inputLines,
    followInput_eq c.sizes hlegible, hstatus]

end

/-- A command line has words. -/
theorem argv_ne_nil {line : String} (h : IsCommand line) :
    argv line.toList ≠ [] :=
  mt List.map_eq_nil_iff.mp (words_ne_nil h.2.1)

/-- The words of a command line are those of what is left of it once it is
trimmed. -/
theorem Gives.argv_commands {lines : List String} {text : List Char}
    (h : Gives lines text) (hlines : ∀ line ∈ lines, IsCommand line) :
    (commands (linesOf (encode text))).map argv
      = lines.map fun line => argv line.toList := by
  rw [(h.commands_eq hlines).2, List.map_map]
  exact List.map_congr_left fun line _ =>
    congrArg (List.map String.ofList) (words_trim line.toList)

/-- **Commands from the arguments and from the input.** Let one run take
command lines from its arguments and another take its input, with the same
options otherwise. How arguments and the configuration file are read does
not matter beyond that.

* If the input gives the same command lines, the two carry out the same
  operations and write the same.
* If the session can be opened and the server chosen, the first runs its
  command lines, and its status is zero exactly if all of them succeed. The
  other runs the command lines of its input, and its status is that of the
  last. The input can be any whose lines are text as far as they are heeded.
* If not, neither runs any command, whatever the input is. Both write the
  text of that failure and end with its status.

Either way the session is closed in the end. -/
theorem sources_agree {w : World} {t : τ} {env : Environment} {o : Options}
    {c : Config} {lines viaArguments viaInput : List String}
    (hconfig : configuration env o = .ok c)
    (harguments : env.reading viaArguments
      = .options { o with commands := lines })
    (hinput : env.reading viaInput = .options { o with commands := [] })
    (hlines : lines ≠ []) :
    let begun := started w t c o.host
    let replies asked := (begun.2.runProgram w (replyAll c.sizes asked)).1
    let x := outcome w t c { o with commands := lines } env.stdin
    let y stdin := outcome w t c { o with commands := [] } stdin
    let xs := lines.map fun line => argv line.toList
    let ys stdin := (commands (linesOf stdin)).map argv
    run w t env viaArguments = x.console
      ∧ (∀ stdin, run w t { env with stdin := stdin } viaInput
        = (y stdin).console)
      ∧ ((∀ line ∈ lines, IsCommand line) → ∀ text, Gives lines text →
        (∀ words ∈ xs, words ≠ []) ∧ Legible (linesOf (encode text))
          ∧ ys (encode text) = xs ∧ (y (encode text)).Alike x)
      ∧ (begun.1.status = 0 →
        x.Obeys w c.sizes o.host begun xs
          ∧ (x.console.status = 0 ↔ ∀ r ∈ replies xs, r.status = 0)
          ∧ ∀ stdin, Legible (linesOf stdin) →
            (y stdin).Obeys w c.sizes o.host begun (ys stdin)
              ∧ (y stdin).console.status
                = ((replies (ys stdin)).getLast?.map (·.status)).getD 0)
      ∧ (begun.1.status ≠ 0 →
        x.console = { stderr := begun.1.output, status := begun.1.status }
          ∧ x.operations = (Session.new c.client t Standard.tables).operations
            w (start c.sizes o.host)
          ∧ ∀ stdin, y stdin = x)
      ∧ x.session.isReady = false
      ∧ ∀ stdin, Legible (linesOf stdin) →
        (y stdin).session.isReady = false := by
  intro begun replies x y xs ys
  have hx : begun.1.status = 0 → x.Obeys w c.sizes o.host begun xs
      ∧ x.console.status = lastFailure 0 (replies xs) := fun h =>
    outcome_of_arguments { o with commands := lines } env.stdin h hlines
  have hy : begun.1.status = 0 → ∀ stdin, Legible (linesOf stdin) →
      (y stdin).Obeys w c.sizes o.host begun (ys stdin)
        ∧ (y stdin).console.status = lastStatus 0 (replies (ys stdin)) :=
    fun h stdin => outcome_of_input { o with commands := [] } h rfl
  have hfailed := fun h : begun.1.status ≠ 0 =>
    outcome_of_not_started { o with commands := lines } env.stdin h
  have hneither : begun.1.status ≠ 0 → ∀ stdin, y stdin = x :=
    fun h stdin =>
      (outcome_of_not_started { o with commands := [] } stdin h).trans
        (hfailed h).symm
  refine ⟨run_eq_outcome env harguments hconfig w t,
    fun stdin => run_eq_outcome { env with stdin := stdin } hinput hconfig w t,
    fun hcommands text hgives => ?same,
    fun h => ⟨(hx h).1, ?first, fun stdin hlegible =>
      ⟨(hy h stdin hlegible).1, ?other⟩⟩,
    fun h => ⟨congrArg Outcome.console (hfailed h),
      congrArg Outcome.operations (hfailed h), hneither h⟩,
    ?closed, fun stdin hlegible => ?closedToo⟩
  case same =>
    have hlegible := (hgives.commands_eq hcommands).1
    have hsame : ys (encode text) = xs := hgives.argv_commands hcommands
    refine ⟨List.forall_mem_map.mpr fun line hline =>
      argv_ne_nil (hcommands line hline), hlegible, hsame, ?_⟩
    -- both go through these command lines, or neither runs any
    by_cases h : begun.1.status = 0
    · have hobeys := (hy h (encode text) hlegible).1
      rw [hsame] at hobeys
      exact hobeys.alike (hx h).1
    · rw [hneither h]
      exact ⟨rfl, rfl, rfl, rfl⟩
  case first => rw [(hx h).2, lastFailure_eq_zero_iff, and_iff_right rfl]
  case other => rw [(hy h stdin hlegible).2, lastStatus_eq]
  case closed =>
    by_cases h : begun.1.status = 0
    · rw [(hx h).1.session]
      exact Session.isReady_destroy _
    · exact isReady_outcome_of_not_started
        { o with commands := lines } env.stdin h
  case closedToo =>
    by_cases h : begun.1.status = 0
    · rw [(hy h stdin hlegible).1.session]
      exact Session.isReady_destroy _
    · exact isReady_outcome_of_not_started
        { o with commands := [] } stdin h

/-- A command line that fails, one that closes the session and one that
opens it again. -/
theorem sources_agree_reopened :
    let w : World := ⟨0, fun _ => [], .files 8, fun _ => true⟩
    let t : Exchange Script := ⟨⟨[]⟩, []⟩
    let env : Environment :=
      { configHome := none, home := none, file := fun _ => none, stdin := [] }
    let text := "\t\n".toList ++ ("bogus".toList ++ "\r".toList) ++ '\n' ::
      ("".toList ++ ("close ".toList ++ "\n  ".toList) ++ '\n' ::
      ("\u3000".toList ++ ("open".toList ++ "".toList)))
    let arguments := ["-c", "bogus", "-c", "close ", "-c", "open"]
    let x := run w t env arguments
    let y := run w t { env with stdin := encode text } []
    x = ⟨"ntpq: closed\nntpq: open\n", "ntpq: unknown command `bogus'\n", 1⟩
      ∧ y.stdout = x.stdout ∧ y.stderr = x.stderr ∧ y.status = 0 := by
  intro w t env text arguments x y
  have harguments : env.reading arguments
      = .options { commands := ["bogus", "close ", "open"] } := by
    decide +kernel
  have hinput : env.reading [] = .options {} := rfl
  have hconfig : configuration env {} = .ok {} := by decide +kernel
  have hgives : Gives ["bogus", "close ", "open"] text :=
    .cons "bogus" (List.all_eq_true.mp rfl) (List.all_eq_true.mp rfl) <|
      .cons "close " (List.all_eq_true.mp rfl) (List.all_eq_true.mp rfl) <|
        .last "open" (List.all_eq_true.mp rfl) (List.all_eq_true.mp rfl)
  have hlines : ∀ line ∈ ["bogus", "close ", "open"], IsCommand line := by
    decide +kernel
  obtain ⟨hx, hy, hsame, -⟩ := @sources_agree _ _ w t _ _ _ _ _ _
    hconfig harguments hinput (List.cons_ne_nil _ _)
  obtain ⟨-, -, -, halike⟩ := hsame hlines text hgives
  refine ⟨by decide +kernel, ?_, ?_, by decide +kernel⟩
  · exact (congrArg Console.stdout (hy _)).trans
      (halike.stdout.trans (congrArg Console.stdout hx).symm)
  · exact (congrArg Console.stderr (hy _)).trans
      (halike.stderr.trans (congrArg Console.stderr hx).symm)

/-- A session of this capacity cannot be opened. The command to close it is
not run then, from neither source. -/
theorem sources_agree_unopened :
    let w : World := ⟨0, fun _ => [], .files 8, fun _ => true⟩
    let t : Exchange Script := ⟨⟨[]⟩, []⟩
    let env : Environment :=
      { configHome := none, home := none, file := fun _ => none, stdin := [] }
    let o : Options := { capacity := some 18446744073709551615 }
    let c : Config := { sizes := { capacity := 18446744073709551615 } }
    let options := ["--capacity", "18446744073709551615"]
    let x := outcome w t c { o with commands := ["close"] } []
    let y := outcome w t c o (utf8 "close\n")
    configuration env o = .ok c
      ∧ IsCommand "close" ∧ Gives ["close"] "close\n".toList
      ∧ Terminal.operation? c.sizes (argv "close".toList) = some .destroy
      ∧ run w t env (options ++ ["-c", "close"]) = x.console
      ∧ run w t { env with stdin := utf8 "close\n" } options = y.console
      ∧ x.operations = [.create 18446744073709551615]
      ∧ y.operations = [.create 18446744073709551615]
      ∧ x.console = ⟨"", "ntpq: unable to allocate 18446744073709551615 "
        ++ "bytes for the capture buffer: 12: Cannot allocate memory "
        ++ "(os error 12)\n", 1⟩
      ∧ y.console = x.console := by
  intro w t env o c options x y
  have hconfig : configuration env o = .ok c := by decide +kernel
  have harguments : env.reading (options ++ ["-c", "close"])
      = .options { o with commands := ["close"] } := by decide +kernel
  have hinput : env.reading options = .options o := by decide +kernel
  have hgives : Gives ["close"] ([] ++ ("close".toList ++ ['\n'])) :=
    .last "close" (List.all_eq_true.mp rfl) (List.all_eq_true.mp rfl)
  have hfailed : (started w t c o.host).1.status ≠ 0 := by decide +kernel
  have hx := outcome_of_not_started { o with commands := ["close"] } []
    hfailed
  have hsame : y = x :=
    (outcome_of_not_started o (utf8 "close\n") hfailed).trans hx.symm
  have hoperations : x.operations = [.create 18446744073709551615] :=
    (congrArg Outcome.operations hx).trans (by decide +kernel)
  refine ⟨hconfig, by decide +kernel, hgives, by decide +kernel,
    run_eq_outcome env harguments hconfig w t,
    run_eq_outcome (o := o) { env with stdin := utf8 "close\n" } hinput
      hconfig w t,
    hoperations, hsame ▸ hoperations, ?_, congrArg Outcome.console hsame⟩
  exact (congrArg Outcome.console hx).trans (by decide +kernel)

end NtpQuery.Cli
