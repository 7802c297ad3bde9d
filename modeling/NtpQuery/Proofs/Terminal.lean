import NtpQuery.Net.Script
import NtpQuery.Proofs.Session.Reentry
import NtpQuery.Proofs.Text.Lenient
import NtpQuery.Terminal

/-!
# Replies tell what has happened

A command line of the terminal stands for an operation of the session, and
the reply tells how the operation went. The operation is carried out like
any other, whether the session runs a command meanwhile or not, so the
replies are looked at on `Guarded` sessions, of which both are cases.
-/

namespace NtpQuery

open Text

namespace Terminal

/-- **The operation that a command line stands for**, if it is not
empty. -/
def operation? (sizes : Sizes) : List String → Option SessionCall
  | [] => none
  | word :: raws => some <|
    if word = "open" then .create sizes.capacity
    else if word = "close" then .destroy
    else .execute (word :: raws) (Bytes.zeros sizes.outputSize)

/-- The text that is shown of an operation that succeeded. -/
def successText : (c : SessionCall) → c.Answer → String
  | .create _, _ => "ntpq: open"
  | .destroy, _ => "ntpq: closed"
  | .execute _ _, answer => shownText answer.2
  | .isReady, _ | .lastError, _ | .configure _, _ => ""

/-- **The reply to an operation** that has been answered, in a session
whose most recent failure is given. -/
def replyTo (c : SessionCall) (answer : c.Answer) (last : ErrorRecord) :
    Reply :=
  match c.told answer with
  | none => success (successText c answer)
  | some _ => failure last.text

variable {τ : Type} [Transport τ] {sizes : Sizes} {argv : List String}
variable {c : SessionCall}

/-- **A command line carries out its operation** and replies to it. -/
theorem run_of_operation (h : operation? sizes argv = some c) (w : World)
    (s : Guarded τ) :
    (run sizes argv).run (Guarded.answer w) s
      = (replyTo c (s.answer w c).1 (s.answer w c).2.lastError,
        (s.answer w c).2) := by
  have hreport : ∀ (result : Except Failure Unit) (text : String)
      (s : Guarded τ), (report result text).run (Guarded.answer w) s
        = (match Failure.of? result with
          | none => success text
          | some _ => failure s.lastError.text, s) := by
    intro result text s
    cases result <;> rfl
  cases argv with
  | nil => exact nomatch h
  | cons word raws =>
    unfold operation? at h
    unfold run
    dsimp only at h ⊢
    split_ifs at h ⊢ <;> obtain rfl := Option.some.inj h
    · exact hreport (s.answer w (.create _)).1 "ntpq: open" _
    · rfl
    · let call := SessionCall.execute (word :: raws)
        (Bytes.zeros sizes.outputSize)
      exact hreport (s.answer w call).1.1 (shownText (s.answer w call).1.2) _

/-! ## The text of a reply -/

omit [Transport τ] in
/-- The text of a reply ends with its line, unless there is none. -/
theorem getLast?_endingLine {t : String} (h : endingLine t ≠ "") :
    (endingLine t).toList.getLast? = some '\n' := by
  unfold endingLine at h ⊢
  split_ifs at h ⊢ with hends
  · rcases hends with hempty | hlast
    · exact absurd (String.isEmpty_iff.mp hempty) h
    · exact hlast
  · rw [String.toList_append]
    exact List.getLast?_concat

/-- **What is shown of a stream** of which there is room for so many
bytes. -/
structure Shows (stream : Bytes) (room : Nat) (output : String) : Prop where
  /-- It is read up to its first zero. -/
  text : output = endingLine (String.ofList
    (decodeLossy ((stream.take room).takeWhile (· != 0))))
  /-- A character that does not fit as a whole is shown as a single U+FFFD,
  and what stands in front of it as it is. -/
  cut : ∀ p c rest k, stream = p ++ (encodeChar c ++ rest) →
    room = p.length + k → 0 < k → k < (encodeChar c).length → 0 ∉ p →
    output = endingLine (String.ofList (decodeLossy p ++ ['\uFFFD']))
      ∧ decodeLossy stream = decodeLossy p ++ c :: decodeLossy rest
  /-- Behind a zero it is not shown at all. -/
  hidden : ∀ p rest, stream = p ++ 0 :: rest → p.length < room → 0 ∉ p →
    output = endingLine (String.ofList (decodeLossy p))

/-- Bytes without a zero are not cut at one. -/
theorem takeWhile_of_no_zero {p : Bytes} (hp : 0 ∉ p) (rest : Bytes) :
    (p ++ rest).takeWhile (· != 0) = p ++ rest.takeWhile (· != 0) := by
  refine List.takeWhile_append_of_pos fun b hb => ?_
  rw [bne_iff_ne]
  rintro rfl
  exact hp hb

/-- Zeros behind a text are not shown. -/
theorem shownText_append_zeros (bytes : Bytes) (n : Nat) :
    shownText (bytes ++ Bytes.zeros n) = shownText bytes := by
  have hzeros : (bytes ++ Bytes.zeros n).takeWhile (· != 0)
      = bytes.takeWhile (· != 0) := by
    induction bytes with
    | nil => cases n <;> rfl
    | cons b bytes ih =>
      rw [List.cons_append, List.takeWhile_cons, List.takeWhile_cons, ih]
  unfold shownText
  rw [hzeros]

/-- **The text of a buffer** that has been filled from a stream. -/
theorem shows_shownText (stream : Bytes) (room : Nat) :
    Shows stream room (endingLine (shownText (stream.take room))) := by
  refine ⟨rfl, fun p c rest k hstream hroom hpos hlt hp => ?_,
    fun p rest hstream hroom hp => ?_⟩
  · obtain ⟨hcut, hwhole⟩ := decodeLossy_cut p rest hpos hlt
    have htake : stream.take room = p ++ (encodeChar c).take k := by
      rw [hstream, hroom, List.take_append, Nat.add_sub_cancel_left,
        List.take_of_length_le (Nat.le_add_right _ _),
        List.take_append_of_le_length hlt.le]
    have hnone : 0 ∉ p ++ (encodeChar c).take k := by
      rw [List.mem_append, not_or]
      refine ⟨hp, fun hmem => ?_⟩
      exact zero_not_mem_encodeChar (by omega) (List.mem_of_mem_take hmem)
    refine ⟨?_, hstream ▸ hwhole⟩
    have hall := takeWhile_of_no_zero hnone []
    rw [List.append_nil, List.takeWhile_nil, List.append_nil] at hall
    unfold shownText
    rw [htake, hall, hcut]
  · have htake : stream.take room
        = p ++ 0 :: rest.take (room - p.length - 1) := by
      obtain ⟨m, hm⟩ : ∃ m, room - p.length = m + 1 :=
        Nat.exists_eq_succ_of_ne_zero (by omega)
      rw [hstream, List.take_append, List.take_of_length_le hroom.le, hm]
      rfl
    unfold shownText
    rw [htake, takeWhile_of_no_zero hp, List.takeWhile_cons]
    simp

/-- **What is shown of a command line** that has been executed. -/
theorem shownText_execute {s : Session τ} (hs : s.Reached) (w : World)
    (argv : List String) (out : Bytes) :
    shownText (s.execute w argv out).output
      = shownText ((s.written w argv).take
        (min s.capacity (out.length - 1))) := by
  obtain ⟨houtput, -⟩ := Session.execute_output hs w argv out
  rw [houtput, shownText_append_zeros]
  congr 1
  rw [List.take_eq_take_iff]
  omega

/-! ## The replies -/

/-- **A session as it can be found**: between two command lines, or at some
point of the run of a command. -/
inductive Found : Guarded τ → Prop where
  /-- It runs no command. -/
  | idle {s : Session τ} (hs : s.Reached) : Found (.idle s)
  /-- It runs one. -/
  | running (tables : Tables Handler) (r : Run τ Buffer) :
    Found (.running tables r)

/-- A session that runs no command can always be closed. -/
theorem failure?_destroy_idle (w : World) (s : Session τ) :
    (Guarded.idle s).failure? w .destroy = none := by
  obtain ⟨client, opened, buffer, lastError, tables⟩ := s
  cases opened <;> rfl

/-- **The three kinds of command lines.** -/
theorem operation?_cases (sizes : Sizes) (word : String)
    (raws : List String) :
    operation? sizes (word :: raws) = some (.create sizes.capacity)
      ∨ word = "close" ∧ operation? sizes (word :: raws) = some .destroy
      ∨ operation? sizes (word :: raws)
        = some (.execute (word :: raws) (Bytes.zeros sizes.outputSize)) := by
  unfold operation?
  dsimp only
  split_ifs with hopen hclose
  · exact Or.inl rfl
  · exact Or.inr (Or.inl ⟨hclose, rfl⟩)
  · exact Or.inr (Or.inr rfl)

/-- A command line that is to close the session says so. -/
theorem head?_of_destroy (h : operation? sizes argv = some .destroy) :
    argv.head? = some "close" := by
  cases argv with
  | nil => exact nomatch h
  | cons word raws =>
    rcases operation?_cases sizes word raws with heq | ⟨rfl, -⟩ | heq
    · exact nomatch h.symm.trans heq
    · rfl
    · exact nomatch h.symm.trans heq

/-- One that is executed gets a blank buffer of the size that is asked
for. -/
theorem eq_zeros_of_execute {out : Bytes}
    (h : operation? sizes argv = some (.execute argv out)) :
    out = Bytes.zeros sizes.outputSize := by
  cases argv with
  | nil => exact nomatch h
  | cons word raws =>
    rcases operation?_cases sizes word raws with heq | ⟨-, heq⟩ | heq
    · exact nomatch h.symm.trans heq
    · exact nomatch h.symm.trans heq
    · exact (SessionCall.execute.inj (Option.some.inj
        (h.symm.trans heq))).2

/-- **What an operation returns tells how it went**, unless it was to close
a session that runs a command. -/
theorem told_of_operation {s : Guarded τ} (h : operation? sizes argv = some c)
    (hfree : (∃ s', s = .idle s') ∨ argv.head? ≠ some "close") (w : World) :
    c.told (s.answer w c).1 = s.failure? w c := by
  by_cases hc : c = .destroy
  · subst hc
    obtain ⟨s', rfl⟩ := hfree.resolve_right fun hne =>
      hne (head?_of_destroy h)
    exact (failure?_destroy_idle w s').symm
  · exact s.told_answer w hc

/-- The reply to an operation that is told to have succeeded. -/
theorem reply_of_success (h : operation? sizes argv = some c) (w : World)
    (s : Guarded τ) (hnone : c.told (s.answer w c).1 = none) :
    ((run sizes argv).run (Guarded.answer w) s).1
      = success (successText c (s.answer w c).1) := by
  rw [run_of_operation h]
  unfold replyTo
  rw [hnone]

/-- The reply to one that is told to have failed. -/
theorem reply_of_failure (h : operation? sizes argv = some c) (w : World)
    (s : Guarded τ) {f : Failure}
    (hf : c.told (s.answer w c).1 = some f) :
    ((run sizes argv).run (Guarded.answer w) s).1
      = failure (ErrorRecord.ofFailure f).text := by
  have hc : c ≠ .destroy := by
    rintro rfl
    exact nomatch hf
  have hrecord := Guarded.lastError_of_failure
    ((s.told_answer w hc).symm.trans hf)
  rw [run_of_operation h]
  unfold replyTo
  rw [hf, hrecord]

/-- **The status says whether it is told to have succeeded.** -/
theorem status_eq_zero_iff (sizes : Sizes) (argv : List String) (w : World)
    (s : Guarded τ) :
    ((run sizes argv).run (Guarded.answer w) s).1.status = 0
      ↔ ∃ c, operation? sizes argv = some c
        ∧ c.told (s.answer w c).1 = none := by
  constructor
  · intro hzero
    cases hc : operation? sizes argv with
    | none =>
      cases argv with
      | nil => exact nomatch hzero
      | cons word raws => exact nomatch hc
    | some c =>
      refine ⟨c, rfl, ?_⟩
      cases htold : c.told (s.answer w c).1 with
      | none => rfl
      | some f =>
        rw [reply_of_failure hc w s htold] at hzero
        exact nomatch hzero
  · rintro ⟨c, hc, hnone⟩
    rw [reply_of_success hc w s hnone]
    rfl

/-- The text of a reply is completed in any case. -/
theorem exists_output_eq (sizes : Sizes) (argv : List String) (w : World)
    (s : Guarded τ) :
    ∃ t, ((run sizes argv).run (Guarded.answer w) s).1.output
      = endingLine t := by
  cases hc : operation? sizes argv with
  | none =>
    cases argv with
    | nil => exact ⟨"error: no host and commands", rfl⟩
    | cons word raws => exact nomatch hc
  | some c =>
    cases htold : c.told (s.answer w c).1 with
    | none =>
      exact ⟨_, congrArg Reply.output (reply_of_success hc w s htold)⟩
    | some f =>
      exact ⟨_, congrArg Reply.output (reply_of_failure hc w s htold)⟩

/-- **The reply to a command line that has been executed** shows what it
wrote. -/
theorem shows_of_execute {s : Session τ} (hs : s.Reached) {out : Bytes}
    (h : operation? sizes argv = some (.execute argv out)) (w : World)
    (hnone : (Guarded.idle s).failure? w (.execute argv out) = none) :
    Shows (s.written w argv) (min s.capacity (sizes.outputSize - 1))
      ((run sizes argv).run (Guarded.answer w) (.idle s)).1.output := by
  have htold := told_of_operation h (Or.inl ⟨s, rfl⟩) w
  have hcall := Guarded.answer_idle w (.execute argv out) s
  have houtput : ((run sizes argv).run (Guarded.answer w) (.idle s)).1.output
      = endingLine (shownText (s.execute w argv out).output) := by
    rw [reply_of_success h w _ (htold.trans hnone), hcall]
    rfl
  rw [houtput, shownText_execute hs, eq_zeros_of_execute h,
    Bytes.length_zeros]
  exact shows_shownText _ _

/-- **Replies tell what has happened**, with one exception. A command line
carries out the operation that it stands for, and nothing else. The status is
zero exactly if there was one and it succeeded. If it failed, the text is the
one on record for that failure, whatever was on record before and whatever
has been written. If a command line was executed, the text is what it wrote,
as far as both buffers have room for it, and up to the first zero: a
character that does not fit as a whole becomes a single U+FFFD, and what
stands in front of it is shown as it is. A text that is not empty ends with
its line. The exception is a session that runs a command: the command cannot
close it, and the reply says that it has. -/
theorem replies_tell_what_happened {s : Guarded τ} (hs : Found s)
    (sizes : Sizes) (argv : List String) (w : World) :
    let answer := (run sizes argv).run (Guarded.answer w) s
    (argv = [] → answer = (⟨1, "error: no host and commands\n"⟩, s))
      ∧ (∀ c, operation? sizes argv = some c →
        answer.2 = (s.answer w c).2)
      ∧ ((∃ s', s = .idle s') ∨ argv.head? ≠ some "close" →
        (answer.1.status = 0 ↔
            ∃ c, operation? sizes argv = some c ∧ s.failure? w c = none)
          ∧ ∀ c f, operation? sizes argv = some c → s.failure? w c = some f →
            answer.1 = ⟨1, endingLine (ErrorRecord.ofFailure f).text⟩)
      ∧ (∀ out, operation? sizes argv = some (.execute argv out) →
        s.failure? w (.execute argv out) = none →
        ∃ s', s = .idle s' ∧ Shows (s'.written w argv)
          (min s'.capacity (sizes.outputSize - 1)) answer.1.output)
      ∧ (answer.1.output ≠ "" →
        answer.1.output.toList.getLast? = some '\n')
      ∧ ∀ tables r, s = .running tables r → argv.head? = some "close" →
        s.failure? w .destroy = some .busy
          ∧ answer.1 = ⟨0, "ntpq: closed\n"⟩ := by
  intro answer
  refine ⟨?_, fun c hc => ?_, fun hfree => ⟨?_, fun c f hc hf => ?_⟩,
    fun out hc hnone => ?_, fun hne => ?_, ?_⟩
  · rintro rfl
    rfl
  · exact congrArg Prod.snd (run_of_operation hc w s)
  · rw [status_eq_zero_iff]
    refine exists_congr fun c => and_congr_right fun hc => ?_
    rw [told_of_operation hc hfree w]
  · exact reply_of_failure hc w s ((told_of_operation hc hfree w).trans hf)
  · cases hs with
    | running tables r =>
      -- a busy session executes nothing
      rw [Guarded.failure?_running] at hnone
      cases argv <;> exact nomatch hnone
    | idle hs => exact ⟨_, rfl, shows_of_execute hs hc w hnone⟩
  · obtain ⟨t, ht⟩ := exists_output_eq sizes argv w s
    have houtput : answer.1.output = endingLine t := ht
    rw [houtput] at hne ⊢
    exact getLast?_endingLine hne
  · rintro tables r rfl hhead
    have hc : operation? sizes argv = some .destroy := by
      obtain ⟨raws, rfl⟩ := List.head?_eq_some_iff.mp hhead
      rfl
    refine ⟨rfl, (reply_of_success hc w _ rfl).trans ?_⟩
    show success "ntpq: closed" = _
    decide

/-- Where there is room for the front byte of a letter only, the letter is
not shown, and the words in front of it are. -/
theorem replies_tell_what_happened_cut :
    let w : World := ⟨0, fun _ => [], .files 8, fun _ => true⟩
    let closed : Session (Exchange Script) :=
      .new {} ⟨⟨[]⟩, []⟩ Standard.tables
    let s := Guarded.idle (closed.create w 64).2
    let answer := (run ⟨64, 11⟩ ["help", "é"]).run (Guarded.answer w) s
    answer.1.status = 0 ∧ answer.1.output = "Command `\uFFFD\n" := by
  intro w closed s answer
  have hs : Found s := .idle (.answer w (.create 64) (.new {} _ _))
  let call := SessionCall.execute ["help", "é"] (Bytes.zeros 11)
  have hcall : operation? ⟨64, 11⟩ ["help", "é"] = some call := rfl
  have hnone : s.failure? w call = none := by decide +kernel
  obtain ⟨-, -, hstatus, hshows, -, -⟩ :=
    replies_tell_what_happened hs ⟨64, 11⟩ ["help", "é"] w
  have hzero := (hstatus (Or.inl ⟨_, rfl⟩)).1.mpr ⟨call, hcall, hnone⟩
  obtain ⟨s', hs', hshown⟩ := hshows _ hcall hnone
  obtain rfl := Guarded.idle_injective hs'
  have hwritten : (closed.create w 64).2.written w ["help", "é"]
      = utf8 "Command `" ++ (encodeChar 'é' ++ utf8 "' is unknown\n") := by
    decide +kernel
  have htext := (hshown.cut _ _ _ 1 hwritten (by decide +kernel) (by decide)
    (by decide) (by decide)).1
  exact ⟨hzero, htext.trans (by decide +kernel)⟩

end Terminal

/-- **A command that gives its session a command line**, and writes the
status and the text that it gets in reply. -/
def Command.relaying (argv : List String) : Command Handler where
  keyword := "relay"
  slots := []
  usage := ""
  comment := "give the session a command line"
  action _ := do
    let reply ← Routine.onSession (Terminal.run {} argv)
    Routine.print (decimal reply.status ++ " " ++ reply.output)

/-- A command that closes its session is told that it has, with status zero.
The session has refused it as busy, and stays open. -/
theorem Terminal.replies_tell_what_happened_relayed :
    let w : World := ⟨0, fun _ => [], .files 8, fun _ => true⟩
    let closed : Session (Exchange Script) :=
      .new {} ⟨⟨[]⟩, []⟩ ⟨[.relaying ["close"]], []⟩
    let s := (closed.create w 64).2
    let busy := Guarded.running s.tables
      (s.start w (s.buffer.getD ⟨[], 0, 0, 0, 0⟩))
    let answer := (run {} ["close"]).run (Guarded.answer w) busy
    let e := s.execute w ["relay"] (Bytes.zeros 24)
    answer.1 = ⟨0, "ntpq: closed\n"⟩
      ∧ busy.failure? w .destroy = some .busy
      ∧ answer.2.isReady = true
      ∧ e.output = utf8 "0 ntpq: closed\n" ++ Bytes.zeros 9
      ∧ e.session.isReady = true
      ∧ e.session.lastError = .ofFailure .busy := by
  decide +kernel

end NtpQuery
