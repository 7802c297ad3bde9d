import NtpQuery.Proofs.Session.Alike

/-!
# Truncation is invisible to commands

How much of its output a session captures, and how much of that a caller
takes, makes no difference to anything but the output. Two sessions that
differ in their capture buffers only stay so, whatever command lines are
executed in both and whatever buffers the callers lend
(`Session.capacity_invisible`): the same datagrams are exchanged, every
command line ends in the same way, and the outputs are cuts of one
stream.
-/

namespace NtpQuery

namespace Session

/-- **A command line that is executed in two sessions**, with the buffer
that each of the two callers lends. -/
structure Round where
  /-- The world around the sessions. -/
  world : World
  /-- The command line. -/
  argv : List String
  /-- The buffer for the output of the first session. -/
  out : Bytes
  /-- The buffer for the output of the second. -/
  out' : Bytes

variable {τ : Type} [Transport τ]

/-- **The session after command lines** whose callers lend buffers. -/
def executeAll (lend : Round → Bytes) (rounds : List Round)
    (s : Session τ) : Session τ :=
  rounds.foldl (fun s r => (s.execute r.world r.argv (lend r)).session) s

omit [Transport τ] in
/-- **Sessions that differ in their capture buffers only**, and there not
in how much they can receive. -/
structure SameButCapture (s s' : Session τ) : Prop where
  /-- The clients are the same, with all that their transports have on
  record. -/
  client : s.client = s'.client
  /-- The tables are the same. -/
  tables : s.tables = s'.tables
  /-- The most recent failure is the same. -/
  lastError : s.lastError = s'.lastError
  /-- The receive buffers have the same length. -/
  scratch : s.buffer.map (·.scratch.length)
    = s'.buffer.map (·.scratch.length)

variable {s s' : Session τ}

omit [Transport τ] in
/-- Sessions that differ in their capture buffers only are alike. -/
theorem SameButCapture.alike (h : s.SameButCapture s') (hs : s.Coherent)
    (hs' : s'.Coherent) : s.Alike Eq true s' := by
  refine ⟨hs, hs', ?_, h.tables, h.scratch, fun _ => h.lastError⟩
  rw [h.client]
  exact .refl s'.client

/-- **One session, opened with two capacities**, gives sessions that differ
in their capture buffers only. -/
theorem create_sameButCapture {n n' : Nat} {w : World}
    (h : (s.create w n).1.isOk = true)
    (h' : (s.create w n').1.isOk = true) :
    (s.create w n).2.SameButCapture (s.create w n').2 := by
  obtain ⟨b, hb, heq⟩ := create_of_isOk h
  obtain ⟨b', hb', heq'⟩ := create_of_isOk h'
  rw [heq, heq']
  refine ⟨rfl, rfl, rfl, congrArg some ?_⟩
  exact (Buffer.frame_of_allocate hb).2.trans
    (Buffer.frame_of_allocate hb').2.symm

/-- **A further command line** keeps sessions alike. -/
theorem Alike.execute (h : s.Alike Eq true s') (w : World)
    (argv : List String) (out out' : Bytes) :
    (s.execute w argv out).Alike Eq true
      (fun stream => fill out.length (stream.take s.capacity))
      (fun stream => fill out'.length (stream.take s'.capacity))
      (s'.execute w argv out') :=
  (execute_alike Transport.alike_eq h w argv out out').resolve_left
    fun hask => absurd hask.1 (by decide)

/-- So does any number of them. -/
theorem Alike.executeAll (h : s.Alike Eq true s') (rounds : List Round) :
    (s.executeAll Round.out rounds).Alike Eq true
      (s'.executeAll Round.out' rounds) := by
  induction rounds generalizing s s' with
  | nil => exact h
  | cons r rounds ih =>
    exact ih (h.execute r.world r.argv r.out r.out').session

/-- The capacity stays what it was. -/
theorem Coherent.capacity_executeAll (h : s.Coherent)
    (lend : Round → Bytes) (rounds : List Round) :
    (s.executeAll lend rounds).capacity = s.capacity := by
  induction rounds generalizing s with
  | nil => rfl
  | cons r rounds ih =>
    obtain ⟨-, hcapacity, -⟩ := h.execute_frame r.world r.argv (lend r)
    refine (ih (h.execute r.world r.argv (lend r))).trans ?_
    rw [capacity_eq, hcapacity, ← capacity_eq]

omit [Transport τ] in
/-- Two cuts of one stream agree as far as both go. -/
theorem getElem?_fill_take {size n i : Nat} (stream : Bytes)
    (hsize : i + 1 < size) (hn : i < n) :
    (fill size (stream.take n))[i]? = some (stream[i]?.getD 0) := by
  have hi : i < size - 1 := Nat.lt_sub_of_add_lt hsize
  rw [fill_eq, List.take_take]
  by_cases hstream : i < stream.length
  · have hlen : i < (stream.take (min (size - 1) n)).length := by
      rw [List.length_take]
      omega
    rw [List.getElem?_append_left hlen, List.getElem?_take_of_lt (by omega),
      List.getElem?_eq_getElem hstream]
    rfl
  · -- behind the stream there are zeros
    rw [List.getElem?_append_right (by rw [List.length_take]; omega),
      List.getElem?_eq_none (Nat.le_of_not_lt hstream)]
    unfold Bytes.zeros
    rw [List.getElem?_replicate, if_pos]
    · rfl
    · simp only [List.length_take]
      omega

/-- **Truncation is invisible.** Two sessions differ in their capture
buffers only, and `earlier` command lines were executed in both, each
caller lending a buffer of its own. Then the `next` command line ends in
the same way in both and makes the same calls, and still they differ in
their capture buffers only: their clients, with all that was sent,
received and waited for, are the same, and so are the most recent
failures. The two outputs are cuts of one stream. They agree wherever
neither capture buffer has ended, and neither caller's but for its last
byte. -/
theorem capacity_invisible {s s' : Session (Traced τ)} (hs : s.Reached)
    (hs' : s'.Reached) (h : s.SameButCapture s') (earlier : List Round)
    (next : Round) :
    let e := (s.executeAll Round.out earlier).execute next.world next.argv
      next.out
    let e' := (s'.executeAll Round.out' earlier).execute next.world
      next.argv next.out'
    e.result = e'.result ∧ e.reentrant = e'.reentrant
      ∧ e.session.SameButCapture e'.session
      ∧ (∃ stream : Bytes,
        e.output = fill next.out.length (stream.take s.capacity)
          ∧ e'.output = fill next.out'.length (stream.take s'.capacity))
      ∧ ∀ i, i < s.capacity → i < s'.capacity →
        i + 1 < next.out.length → i + 1 < next.out'.length →
        e.output[i]? = e'.output[i]? := by
  have hcoherent := hs.coherent
  have hcoherent' := hs'.coherent
  have hnext := ((h.alike hcoherent hcoherent').executeAll earlier).execute
    next.world next.argv next.out next.out'
  rw [hcoherent.capacity_executeAll, hcoherent'.capacity_executeAll] at hnext
  intro e e'
  obtain ⟨stream, houtput, houtput'⟩ := hnext.output
  refine ⟨hnext.result, hnext.reentrant, ⟨hnext.session.client.eq,
    hnext.session.tables, hnext.session.lastError rfl,
    hnext.session.scratch⟩, ⟨stream, houtput, houtput'⟩, ?_⟩
  intro i hi hi' hsize hsize'
  show (execute ..).output[i]? = (execute ..).output[i]?
  rw [houtput, houtput', getElem?_fill_take stream hsize hi,
    getElem?_fill_take stream hsize' hi']

/-- Of the version, a session with room for eight bytes and a caller with
room for six see five, and the first of them are what a session and a
caller with more room see. -/
theorem capacity_invisible_version :
    let w : World := ⟨0, fun _ => [], .files 8, fun _ => true⟩
    let closed : Session (Traced (Exchange Script)) :=
      .new {} ⟨⟨⟨[]⟩, []⟩, []⟩ Standard.tables
    let s := (closed.create w 8).2
    let s' := (closed.create w 64).2
    let earlier : List Round := [⟨w, ["raw"], [], [1, 2, 3]⟩]
    let e := (s.executeAll Round.out earlier).execute w ["version"]
      [1, 2, 3, 4, 5, 6]
    let e' := (s'.executeAll Round.out' earlier).execute w ["version"]
      (Bytes.zeros 20)
    s.isReady = true ∧ s'.isReady = true ∧ s.SameButCapture s'
      ∧ e.session.SameButCapture e'.session
      ∧ e.output = Text.utf8 "ntpq-" ++ [0]
      ∧ e'.output = Text.utf8 "ntpq-embed 0.1.0\n" ++ [0, 0, 0]
      ∧ ∀ i < 5, e.output[i]? = e'.output[i]? := by
  intro w closed s s' earlier e e'
  have hs : s.Reached := .answer w (.create 8) (.new {} _ _)
  have hs' : s'.Reached := .answer w (.create 64) (.new {} _ _)
  have hsame : s.SameButCapture s' :=
    create_sameButCapture (by decide) (by decide)
  obtain ⟨-, -, hend, -, hagree⟩ := capacity_invisible hs hs' hsame earlier
    ⟨w, ["version"], [1, 2, 3, 4, 5, 6], Bytes.zeros 20⟩
  have hcapacity : s.capacity = 8 := by decide
  have hcapacity' : s'.capacity = 64 := by decide
  refine ⟨by decide, by decide, hsame, hend, by decide, by decide,
    fun i hi => ?_⟩
  refine hagree i (by omega) (by omega) ?_ ?_
  · show i + 1 < 6
    omega
  · show i + 1 < 20
    omega

end Session

end NtpQuery
