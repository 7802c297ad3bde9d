import NtpQuery.Net.Script
import NtpQuery.Proofs.Session.Reached

/-!
# What a caller gets to see

The output of a command line is cut twice: at the capacity of the capture
buffer, and at the end of the buffer that the caller lends, less one byte
for a zero. What is left of it is followed by zeros. `Session.written` is
the output before both cuts: what the same command line writes to a tape,
with a blank receive buffer. So nothing of what the capture buffer or the
caller's buffer held before can come through
(`Session.execute_output`).
-/

namespace NtpQuery

namespace Session

variable {τ : Type} [Transport τ]

/-- **The same command line on a blank tape**, if it comes so far that
its keyword is looked up. -/
def onBlankTape (w : World) (argv : List String) (s : Session τ) :
    Option (Except Failure Unit × Run τ Tape) :=
  match s.buffer, argv with
  | some buffer, keyword :: raws =>
    some (Run.dispatch s.tables keyword raws
      (s.start w (Tape.mk [] (Bytes.zeros buffer.scratch.length))))
  | _, _ => none

/-- **All that a command line writes**, in reading its arguments and in
its routine. -/
def written (w : World) (argv : List String) (s : Session τ) : Bytes :=
  match s.onBlankTape w argv with
  | some answer => answer.2.workspace.output
  | none => []

omit [Transport τ] in
/-- The capacity of the capture buffer. -/
def capacity (s : Session τ) : Nat :=
  match s.buffer with
  | some buffer => buffer.capacity
  | none => 0

/-- The caller's buffer holds the front of the output, then zeros. -/
theorem fill_eq (size : Nat) (output : Bytes) :
    fill size output = output.take (size - 1)
      ++ Bytes.zeros (size - min output.length (size - 1)) := by
  unfold fill terminate
  cases size with
  | zero =>
    have hnil : Bytes.overlay (Bytes.zeros 0) output = [] := by
      rw [← List.length_eq_zero_iff, Bytes.length_overlay,
        Bytes.length_zeros]
    rw [hnil, Nat.zero_sub, Nat.zero_sub, List.take_zero]
    rfl
  | succ k =>
    have hlen : (Bytes.overlay (Bytes.zeros (k + 1)) output).length
        = k + 1 := by
      rw [Bytes.length_overlay, Bytes.length_zeros]
    have hne : ¬ (Bytes.overlay (Bytes.zeros (k + 1)) output).isEmpty := by
      rw [List.isEmpty_iff_length_eq_zero, hlen]
      exact Nat.succ_ne_zero k
    rw [if_neg hne, List.dropLast_eq_take, hlen, Nat.add_sub_cancel]
    unfold Bytes.overlay
    rw [Bytes.length_zeros, List.take_append, List.take_take,
      Nat.min_eq_left (Nat.le_succ k), List.append_assoc]
    unfold Bytes.zeros
    rw [List.drop_replicate, List.take_replicate, List.length_take]
    -- the last zero is the one that replaces what stood there
    rw [show [(0 : UInt8)] = List.replicate 1 0 from rfl,
      List.replicate_append_replicate]
    congr 2
    omega

/-- **What comes of a command line, and of the same on a tape.** The
capture buffer was `b`, and the transports are related. -/
structure Execution.OnTape {τ' : Type} (R : τ → τ' → Prop) (known : Bool)
    (b : Buffer) (e : Execution τ)
    (t : Except Failure Unit × Run τ' Tape) : Prop where
  /-- The result is the same. -/
  result : e.result = t.1
  /-- What was captured is the front of what the tape holds. -/
  output : e.output = t.2.workspace.output.take b.capacity
  /-- The session was called in the same way. -/
  reentrant : e.reentrant = t.2.reentrant
  /-- The clients are alike. -/
  client : e.session.client.Alike R t.2.client
  /-- The most recent failure is the same if it is known, or if a call on
  the session has failed. -/
  lastError : (known || SessionCall.anyFails e.reentrant) = true →
    e.session.lastError = t.2.lastError
  /-- The session has a buffer of the same capacity still, and of its
  receive buffer the length is known. -/
  buffer : ∃ c, e.session.buffer = some c ∧ c.capacity = b.capacity
    ∧ c.scratch.length = t.2.workspace.scratch.length

/-- **A command line in a session is the same command line on a tape**,
also if the client of the tape is merely alike, unless the routine asks
for a failure that need not be known. -/
theorem run_onTape {τ' : Type} [Transport τ'] {R : τ → τ' → Prop}
    (known : Bool) {s : Session τ} {s' : Session τ'} {b : Buffer}
    (hR : Transport.Alike R) (hs : s.Coherent) (hbuffer : s.buffer = some b)
    (hclient : s.client.Alike R s'.client) (htables : s.tables = s'.tables)
    (herror : known = true → s.lastError = s'.lastError) {size : Nat}
    (hsize : size = b.scratch.length) (w : World) (keyword : String)
    (raws : List String) :
    (known = false ∧
        SessionCall.asksFirst (s.run w (keyword :: raws)).reentrant = true)
      ∨ (s.run w (keyword :: raws)).OnTape R known b
        (Run.dispatch s'.tables keyword raws
          (s'.start w (Tape.mk [] (Bytes.zeros size)))) := by
  have hopened : s.opened = true := by rw [hs.opened, hbuffer]; rfl
  have hsound := hs.sound b hbuffer
  subst hsize
  rw [run_cons hopened hbuffer, ← htables]
  refine (Run.dispatch_alike (.of_alike hR (Buffer.alike_onTape b.capacity))
    (start_alike hclient herror (.refl w) hsound.onTape_clear) s.tables
    keyword raws).imp id ?_
  rintro ⟨hresult, hend⟩
  exact ⟨hresult, hend.workspace.contents, hend.reentrant, hend.client,
    hend.lastError, _, rfl, hend.workspace.capacity,
    hend.workspace.scratch.symm⟩

/-- Where the most recent failure is known, there is no exception. -/
theorem run_onTape_of_known {s : Session τ} {b : Buffer} (hs : s.Coherent)
    (hbuffer : s.buffer = some b) {size : Nat}
    (hsize : size = b.scratch.length) (w : World) (keyword : String)
    (raws : List String) :
    (s.run w (keyword :: raws)).OnTape Eq true b
      (Run.dispatch s.tables keyword raws
        (s.start w (Tape.mk [] (Bytes.zeros size)))) :=
  (run_onTape true Transport.alike_eq hs hbuffer (.refl s.client) rfl
    (fun _ => rfl) hsize w keyword raws).resolve_left
      fun hask => absurd hask.1 (by decide)

/-- **A command line captures the front of what it writes**, and is the
same command line otherwise. -/
theorem run_output {s : Session τ} (hs : s.Reached) (w : World)
    (argv : List String) :
    (s.run w argv).output = (s.written w argv).take s.capacity
      ∧ ∀ answer ∈ s.onBlankTape w argv,
        (s.run w argv).result = answer.1
          ∧ (s.run w argv).session.client = answer.2.client
          ∧ (s.run w argv).reentrant = answer.2.reentrant := by
  unfold written onBlankTape capacity
  rcases hs.coherent.cases with ⟨b, hopened, hbuffer, -⟩ | ⟨hopened, hbuffer⟩
  · cases argv with
    | nil =>
      rw [run_nil (by rw [hs.coherent.isReady_eq, hopened]), hbuffer]
      exact ⟨List.take_nil.symm, fun answer ha => nomatch ha⟩
    | cons keyword raws =>
      have hrun := run_onTape_of_known hs.coherent hbuffer rfl w keyword raws
      rw [hbuffer]
      refine ⟨hrun.output, fun answer ha => ?_⟩
      obtain rfl := Option.some.inj ha
      exact ⟨hrun.result, hrun.client.eq, hrun.reentrant⟩
  · rw [run_of_not_ready (by rw [hs.coherent.isReady_eq, hopened]), hbuffer]
    exact ⟨rfl, fun answer ha => nomatch ha⟩

/-- **The exact output of a command line.** Of all that it writes, the
caller gets what fits the capture buffer and its own buffer, followed by
zeros only, however the command line ends. What is written does not
depend on what either buffer held before, for it is what the same command
line writes to a blank tape. A command line that comes from inside a
command writes nothing, and its caller gets zeros. -/
theorem execute_output {s : Session τ} (hs : s.Reached) (w : World)
    (argv : List String) (out : Bytes) :
    let e := s.execute w argv out
    let n := min (s.written w argv).length
      (min s.capacity (out.length - 1))
    e.output = (s.written w argv).take n ++ Bytes.zeros (out.length - n)
      ∧ (out ≠ [] → e.output.getLast? = some 0)
      ∧ (∀ answer ∈ s.onBlankTape w argv,
        e.result = answer.1 ∧ e.session.client = answer.2.client
          ∧ e.reentrant = answer.2.reentrant)
      ∧ ∀ last, ((SessionCall.execute argv out).answerBusy last).2
        = Bytes.zeros out.length := by
  obtain ⟨houtput, hsame⟩ := run_output hs w argv
  intro e n
  have hexact : e.output = (s.written w argv).take n
      ++ Bytes.zeros (out.length - n) := by
    show fill out.length (s.run w argv).output = _
    rw [fill_eq, houtput, List.take_take, List.length_take]
    congr 1
    · rw [List.take_eq_take_iff]
      omega
    · congr 1
      omega
  refine ⟨hexact, fun hne => ?_, fun answer ha => ?_, fun _ => rfl⟩
  · have hpos : 0 < out.length := List.length_pos_iff.mpr hne
    obtain ⟨m, hm⟩ : ∃ m, out.length - n = m + 1 :=
      Nat.exists_eq_succ_of_ne_zero (by omega)
    rw [hexact, hm]
    unfold Bytes.zeros
    rw [List.replicate_succ', ← List.append_assoc, List.getLast?_concat]
  · obtain ⟨hresult, hclient, hreentrant⟩ := hsame answer ha
    exact ⟨hresult, (record_frame _ _).1.trans hclient, hreentrant⟩

/-- Of the version, a caller with room for six bytes sees five, although
the session would capture twelve. -/
theorem execute_output_version :
    let w : World := ⟨0, fun _ => [], .files 8, fun _ => true⟩
    let s : Session (Exchange Script) :=
      (answer w (.create 12) (.new {} ⟨⟨[]⟩, []⟩ Standard.tables)).2
    (s.written w ["version"]).length = 17 ∧ s.capacity = 12
      ∧ (s.execute w ["version"] [1, 2, 3, 4, 5, 6]).output
        = Text.utf8 "ntpq-" ++ [0] := by
  intro w s
  have hs : s.Reached := .answer w (.create 12) (.new {} _ _)
  have hwritten : s.written w ["version"] = Text.utf8 "ntpq-embed 0.1.0\n" := by
    decide
  have hcapacity : s.capacity = 12 := by decide
  refine ⟨by rw [hwritten]; decide, hcapacity, ?_⟩
  rw [(execute_output hs w ["version"] [1, 2, 3, 4, 5, 6]).1, hwritten,
    hcapacity]
  decide

end Session

end NtpQuery
