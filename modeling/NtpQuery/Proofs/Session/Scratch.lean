import Mathlib.Data.List.Forall2
import NtpQuery.Proofs.Net.Cut
import NtpQuery.Proofs.Session.Truncation
import NtpQuery.Proofs.Wire.Room

/-!
# The scratch region is invisible to commands

The scratch region of a session has room for every datagram that can be
read, whatever the limit on open files is (`datagramRoom_le_scratchLength`).
So it does not matter how much room there is. What a longer datagram loses
is not read anyway, so it means the same to every request
(`Client.verdict_take`), and a query has the same outcome with any two
buffers that have the room (`Client.query_of_room`).

The same is then true of command lines. Two sessions that differ in their
scratch regions only stay so, whatever is executed in both, and cannot be
told apart by what comes of it (`Session.scratch_invisible`). The limit on
open files has no other use, so it may change as it likes.
-/

namespace NtpQuery

/-- **There is always room for a datagram.** -/
theorem datagramRoom_le_scratchLength (limit : FileLimit) :
    datagramRoom ≤ scratchLength limit :=
  Nat.le_max_right _ _

namespace Client

variable {opcode : Opcode} {sequence : UInt16}

/-- **A datagram that is cut** to no less than a header and a payload means
the same as the whole. -/
theorem verdict_take {n : Nat} (hn : headerLength + maxPayload ≤ n)
    (d : Bytes) :
    verdict opcode sequence (d.take n) = verdict opcode sequence d := by
  cases hd : Fragment.decode d with
  | ok f =>
    unfold verdict
    rw [hd, (Fragment.decode_take_iff hn).mpr hd]
  | error e =>
    cases htake : Fragment.decode (d.take n) with
    | ok f =>
      exact nomatch hd.symm.trans ((Fragment.decode_take_iff hn).mp htake)
    | error e' =>
      unfold verdict
      rw [hd, htake]

variable {τ : Type} [Transport τ]

/-- **Through a transport that cuts datagrams** every request meets with
the same, with whatever room there is. -/
theorem Meets.of_cuts (hcuts : Transport.Cuts τ) {n n' : Nat}
    (hn : headerLength + maxPayload ≤ n)
    (hn' : headerLength + maxPayload ≤ n') (opcode : Opcode)
    (sequence : UInt16) :
    Meets (Eq : τ → τ → Prop) n n' opcode sequence where
  send := Transport.alike_eq.send
  close := Transport.alike_eq.close
  recv {t _} h first further a scratch hscratch := by
    subst h
    obtain ⟨arrival, u, hrecv⟩ := hcuts t (patience first further a)
    refine ⟨scratch, t, hscratch, rfl, ?_, ?_⟩
    · rw [hrecv, hrecv]
      cases arrival with
      | error e => exact .error e
      | ok d =>
        exact .datagram ((verdict_take hn d).trans (verdict_take hn' d).symm)
    · rw [hrecv, hrecv]

/-- **A query has the same outcome** with any two buffers that have the
room. -/
theorem query_of_room (hcuts : Transport.Cuts τ) {scratch scratch' : Bytes}
    (hroom : headerLength + maxPayload ≤ scratch.length)
    (hroom' : headerLength + maxPayload ≤ scratch'.length) (c : Client τ)
    (w : World) (opcode : Opcode) (assid : UInt16) (data : Bytes) :
    let o := c.query w opcode assid data scratch
    let o' := c.query w opcode assid data scratch'
    o.result = o'.result ∧ o.client = o'.client := by
  have h := (Alike.refl c).query_of_meets opcode
    (.of_cuts hcuts hroom hroom' opcode _) w assid data
  exact ⟨h.result, h.client.eq⟩

end Client

/-- **Tapes that differ in their receive buffers only**, and have the room
in them. -/
structure Tape.SameButScratch (v v' : Tape) : Prop where
  /-- The same has been written to them. -/
  output : v.output = v'.output
  /-- The first has the room. -/
  room : headerLength + maxPayload ≤ v.scratch.length
  /-- So has the second. -/
  room' : headerLength + maxPayload ≤ v'.scratch.length

/-- Through a transport that cuts datagrams such tapes cannot be told
apart. -/
theorem Run.matched_of_cuts {τ : Type} [Transport τ]
    (hcuts : Transport.Cuts τ) :
    Run.Matched (Eq : τ → τ → Prop) Tape.SameButScratch where
  close := Transport.alike_eq.close
  write hv bytes := ⟨rfl, congrArg (· ++ bytes) hv.output, hv.room, hv.room'⟩
  query hc _ _ hv w opcode assid data :=
    hc.query_of_meets opcode (.of_cuts hcuts hv.room hv.room' opcode _) w
      assid data
  setScratch hv _ _ hlen hlen' :=
    ⟨hv.output, Nat.le_trans hv.room (Nat.le_of_eq hlen.symm),
      Nat.le_trans hv.room' (Nat.le_of_eq hlen'.symm)⟩

namespace Session

section

variable {τ : Type}

/-- **Sessions that differ in their scratch regions only**: how long these
are, and what they hold. -/
structure SameButScratch (s s' : Session τ) : Prop where
  /-- The clients are the same, with their transports. -/
  client : s.client = s'.client
  /-- The tables are the same. -/
  tables : s.tables = s'.tables
  /-- The most recent failure is the same. -/
  lastError : s.lastError = s'.lastError
  /-- They have the same capacity, or both have no buffer. -/
  capacity : s.buffer.map (·.capacity) = s'.buffer.map (·.capacity)

/-- **A session with room for datagrams**, if it is open. -/
def Roomy (s : Session τ) : Prop :=
  ∀ n ∈ s.buffer.map (·.scratch.length), datagramRoom ≤ n

/-- **The same command line** in worlds that are alike. -/
structure Round.SameButFiles (r r' : Round) : Prop where
  /-- The worlds are alike: the limit on open files may differ. -/
  world : r.world.Alike r'.world
  /-- The command line is the same. -/
  argv : r.argv = r'.argv
  /-- The caller lends the same buffer. -/
  out : r.out = r'.out

end

variable {τ : Type} [Transport τ] {s s' : Session τ}

/-- Opening a session gives it the room. -/
theorem Roomy.create (h : s.Roomy) (w : World) (capacity : Nat) :
    (s.create w capacity).2.Roomy := by
  rcases s.create_cases w capacity with
    ⟨-, heq⟩ | ⟨-, e, -, heq⟩ | ⟨-, b, hb, heq⟩
  · rw [heq]
    exact h
  · rw [heq]
    exact h
  · rw [heq]
    intro n hn
    obtain rfl := Option.some.inj hn
    show datagramRoom ≤ b.scratch.length
    rw [(Buffer.frame_of_allocate hb).2]
    exact datagramRoom_le_scratchLength _

/-- **Every session that can be reached** has room for datagrams. -/
theorem Reached.roomy (h : s.Reached) : s.Roomy := by
  induction h with
  | new d t tables => exact fun n hn => nomatch hn
  | @answer s w c hs ih =>
    cases c with
    | isReady => exact ih
    | lastError => exact ih
    | create capacity => exact ih.create w capacity
    | destroy =>
      cases hopened : s.opened with
      | true =>
        show s.destroy.Roomy
        rw [destroy_of_opened hopened]
        exact fun n hn => nomatch hn
      | false =>
        show s.destroy.Roomy
        rwa [destroy_of_closed hopened]
    | configure d => exact ih
    | execute argv out =>
      show (s.execute w argv out).session.Roomy
      unfold Roomy
      rwa [hs.coherent.execute_scratch w argv out]
  | transport t _ ih => exact ih

/-- **One session, opened under two limits**, gives sessions that differ in
their scratch regions only. -/
theorem create_sameButScratch {capacity : Nat} {w w' : World}
    (h : (s.create w capacity).1.isOk = true)
    (h' : (s.create w' capacity).1.isOk = true) :
    (s.create w capacity).2.SameButScratch (s.create w' capacity).2 := by
  obtain ⟨b, hb, heq⟩ := create_of_isOk h
  obtain ⟨b', hb', heq'⟩ := create_of_isOk h'
  rw [heq, heq']
  refine ⟨rfl, rfl, rfl, congrArg some ?_⟩
  exact (Buffer.frame_of_allocate hb).1.trans
    (Buffer.frame_of_allocate hb').1.symm

/-- **Words that are carried out** in sessions that differ in their scratch
regions only are so in the same way. -/
theorem run_cons_of_room (hcuts : Transport.Cuts τ) (hs : s.Reached)
    (hs' : s'.Reached) (h : s.SameButScratch s') {w w' : World}
    (hw : w.Alike w') {b : Buffer} (hbuffer : s.buffer = some b)
    (keyword : String) (raws : List String) :
    let e := s.run w (keyword :: raws)
    let e' := s'.run w' (keyword :: raws)
    e.result = e'.result ∧ e.output = e'.output
      ∧ e.reentrant = e'.reentrant ∧ e.session.SameButScratch e'.session := by
  obtain ⟨b', hbuffer', hcapacity⟩ : ∃ b', s'.buffer = some b'
      ∧ b.capacity = b'.capacity := by
    have hmap := h.capacity
    rw [hbuffer] at hmap
    obtain ⟨b', hb', heq⟩ := Option.map_eq_some_iff.mp hmap.symm
    exact ⟨b', hb', heq.symm⟩
  have hrun := run_onTape_of_known hs.coherent hbuffer rfl w keyword raws
  have hrun' := run_onTape_of_known hs'.coherent hbuffer' rfl w' keyword raws
  have hroom : ∀ {s : Session τ} {b : Buffer}, s.Roomy →
      s.buffer = some b →
      headerLength + maxPayload ≤ (Bytes.zeros b.scratch.length).length := by
    intro s b hroomy hb
    have hle : datagramRoom ≤ b.scratch.length :=
      hroomy _ (by rw [hb]; rfl)
    rw [Bytes.length_zeros]
    exact Nat.le_trans (Nat.le_add_right _ _) hle
  have hclient : s.client.Alike Eq s'.client := h.client ▸ .refl _
  obtain ⟨hresult, hend⟩ := Run.dispatch_alike_of_known
    (Run.matched_of_cuts hcuts)
    (start_alike hclient (fun _ => h.lastError) hw
      (⟨rfl, hroom hs.roomy hbuffer, hroom hs'.roomy hbuffer'⟩ :
        Tape.SameButScratch ⟨[], Bytes.zeros b.scratch.length⟩
          ⟨[], Bytes.zeros b'.scratch.length⟩))
    s.tables keyword raws
  rw [← h.tables] at hrun'
  obtain ⟨c, hc, hcc, -⟩ := hrun.buffer
  obtain ⟨c', hc', hcc', -⟩ := hrun'.buffer
  refine ⟨hrun.result.trans (hresult.trans hrun'.result.symm), ?_,
    hrun.reentrant.trans (hend.reentrant.trans hrun'.reentrant.symm),
    ?_, ?_, ?_, ?_⟩
  · rw [hrun.output, hrun'.output, hend.workspace.output, hcapacity]
  · rw [hrun.client.eq, hend.client.eq, hrun'.client.eq]
  · rw [(run_frame s w _).2, (run_frame s' w' _).2, h.tables]
  · exact (hrun.lastError rfl).trans
      ((hend.lastError rfl).trans (hrun'.lastError rfl).symm)
  · rw [hc, hc']
    exact congrArg some (hcc.trans (hcapacity.trans hcc'.symm))

/-- **A command line goes the same way in both.** -/
theorem run_of_room (hcuts : Transport.Cuts τ) (hs : s.Reached)
    (hs' : s'.Reached) (h : s.SameButScratch s') {w w' : World}
    (hw : w.Alike w') (argv : List String) :
    let e := s.run w argv
    let e' := s'.run w' argv
    e.result = e'.result ∧ e.output = e'.output
      ∧ e.reentrant = e'.reentrant ∧ e.session.SameButScratch e'.session := by
  have hcoherent := hs.coherent
  have hcoherent' := hs'.coherent
  have hsome := congrArg Option.isSome h.capacity
  rw [Option.isSome_map, Option.isSome_map, ← hcoherent.opened,
    ← hcoherent'.opened] at hsome
  have hsame : s.isReady = s'.isReady := by
    rw [hcoherent.isReady_eq, hcoherent'.isReady_eq, hsome]
  cases hready : s.isReady with
  | false =>
    rw [run_of_not_ready hready, run_of_not_ready (hsame.symm.trans hready)]
    exact ⟨rfl, rfl, rfl, h⟩
  | true =>
    cases argv with
    | nil =>
      rw [run_nil hready, run_nil (hsame.symm.trans hready)]
      exact ⟨rfl, rfl, rfl, h⟩
    | cons keyword raws =>
      obtain ⟨-, b, hbuffer⟩ := exists_buffer_of_ready hready
      exact run_cons_of_room hcuts hs hs' h hw hbuffer keyword raws

/-- So does executing it, if the callers lend the same buffer. -/
theorem execute_of_room (hcuts : Transport.Cuts τ) (hs : s.Reached)
    (hs' : s'.Reached) (h : s.SameButScratch s') {w w' : World}
    (hw : w.Alike w') (argv : List String) (out : Bytes) :
    let e := s.execute w argv out
    let e' := s'.execute w' argv out
    e.result = e'.result ∧ e.output = e'.output
      ∧ e.reentrant = e'.reentrant ∧ e.session.SameButScratch e'.session := by
  obtain ⟨hresult, houtput, hreentrant, hend⟩ :=
    run_of_room hcuts hs hs' h hw argv
  refine ⟨hresult, congrArg (fill out.length) houtput, hreentrant, ?_⟩
  show ((s.run w argv).session.record (s.run w argv).result).SameButScratch
    ((s'.run w' argv).session.record (s'.run w' argv).result)
  rw [← hresult]
  cases (s.run w argv).result with
  | ok _ => exact hend
  | error e => exact ⟨hend.client, hend.tables, rfl, hend.capacity⟩

/-- Command lines lead from sessions that can be reached to such
sessions. -/
theorem Reached.executeAll (hs : s.Reached) (rounds : List Round) :
    (s.executeAll Round.out rounds).Reached := by
  induction rounds generalizing s with
  | nil => exact hs
  | cons r rounds ih =>
    exact ih (.answer r.world (.execute r.argv r.out) hs)

/-- **Any number of command lines** keeps sessions that differ in their
scratch regions only. -/
theorem executeAll_of_room (hcuts : Transport.Cuts τ) (hs : s.Reached)
    (hs' : s'.Reached) (h : s.SameButScratch s') {rounds rounds' : List Round}
    (hrounds : List.Forall₂ Round.SameButFiles rounds rounds') :
    (s.executeAll Round.out rounds).SameButScratch
      (s'.executeAll Round.out rounds') := by
  induction hrounds generalizing s s' with
  | nil => exact h
  | @cons r r' _ _ hround _ ih =>
    obtain ⟨w, argv, out, lent⟩ := r
    obtain ⟨w', argv', out', lent'⟩ := r'
    obtain ⟨hw, hargv, hout⟩ := hround
    obtain rfl : argv = argv' := hargv
    obtain rfl : out = out' := hout
    obtain ⟨-, -, -, hnext⟩ := execute_of_room hcuts hs hs' h hw argv out
    exact ih (.answer w (.execute argv out) hs)
      (.answer w' (.execute argv out) hs') hnext

/-- **The scratch region neither loses nor leaks anything.** Whatever the
limit on open files is, it has room for 504 bytes. Receiving any datagram
into a buffer of 480 bytes or more, whatever the buffer held, and reading
what was received gives what reading the whole datagram gives. So, through
a transport that cuts datagrams, a query has the same outcome with any two
such buffers.

A session that is opened under different limits gives sessions that differ
in their scratch regions only. After any command lines, executed in both
under whatever limits, the next has the same result, the same output and
the same calls on its session, and leaves them so. Exchanges with a peer
and sockets are transports that cut datagrams. -/
theorem scratch_invisible :
    (∀ limit : FileLimit, 504 ≤ scratchLength limit)
      ∧ (∀ buffer d : Bytes, 480 ≤ buffer.length → ∀ f,
        let received := d.take buffer.length
        Fragment.decode ((buffer.overlay received).take received.length)
            = .ok f
          ↔ Fragment.decode d = .ok f)
      ∧ (∀ (τ : Type) [Transport τ], Transport.Cuts τ →
        (∀ (c : Client τ) (w : World) (opcode : Opcode) (assid : UInt16)
          (data scratch scratch' : Bytes), 480 ≤ scratch.length →
          480 ≤ scratch'.length →
          let o := c.query w opcode assid data scratch
          let o' := c.query w opcode assid data scratch'
          o.result = o'.result ∧ o.client = o'.client)
        ∧ (∀ (s : Session τ) (capacity : Nat) (w w' : World),
          (s.create w capacity).1.isOk = true →
          (s.create w' capacity).1.isOk = true →
          (s.create w capacity).2.SameButScratch (s.create w' capacity).2)
        ∧ ∀ s s' : Session τ, s.Reached → s'.Reached →
          s.SameButScratch s' → ∀ (earlier earlier' : List Round)
          (next next' : Round),
          List.Forall₂ Round.SameButFiles earlier earlier' →
          next.SameButFiles next' →
          let e := (s.executeAll Round.out earlier).execute next.world
            next.argv next.out
          let e' := (s'.executeAll Round.out earlier').execute next'.world
            next'.argv next'.out
          e.result = e'.result ∧ e.output = e'.output
            ∧ e.reentrant = e'.reentrant
            ∧ e.session.SameButScratch e'.session)
      ∧ (∀ (σ : Type) [Responder σ], Transport.Cuts (Exchange σ))
      ∧ Transport.Cuts Udp := by
  refine ⟨datagramRoom_le_scratchLength,
    fun buffer d hroom f => Fragment.decode_received_iff hroom,
    fun τ _ hcuts => ⟨fun c w opcode assid data scratch scratch' h h' =>
      Client.query_of_room hcuts h h' c w opcode assid data,
      fun s capacity w w' h h' => create_sameButScratch h h',
      fun s s' hs hs' h earlier earlier' next next' hearlier hnext => ?_⟩,
    fun σ _ => Exchange.cuts σ, Udp.cuts⟩
  have hbefore := executeAll_of_room hcuts hs hs' h hearlier
  rw [← hnext.argv, ← hnext.out]
  exact execute_of_room hcuts (hs.executeAll earlier)
    (hs'.executeAll earlier') hbefore hnext.world next.argv next.out

/-- A reply with six hundred bytes behind its payload, received into
regions of 504 and of 8192 bytes: it is cut in the one and whole in the
other, and shown alike. -/
theorem scratch_invisible_padded :
    let h := { Header.request 2 .readVariables 1 0 0 with response := true }
    let reply := (Fragment.place h 0 false [97, 61, 49]).encode
      ++ Bytes.zeros 600
    let closed : Session (Exchange Script) :=
      .new {} ⟨⟨[⟨none, none, none, [.raw reply], 0⟩]⟩, []⟩ Standard.tables
    let few : World := ⟨0, fun _ => [.v4 #v[192, 0, 2, 1]], .files 8,
      fun _ => true⟩
    let many : World := { few with openFiles := .files 65536 }
    let e := (closed.create few 64).2.execute few ["rv"] (Bytes.zeros 64)
    let e' := (closed.create many 64).2.execute many ["rv"] (Bytes.zeros 64)
    scratchLength few.openFiles = 504 ∧ scratchLength many.openFiles = 8192
      ∧ e.result = e'.result ∧ e.output = e'.output
      ∧ e.session.client = e'.session.client := by
  intro h reply closed few many e e'
  obtain ⟨-, -, hsessions, hcuts, -⟩ := scratch_invisible
  obtain ⟨-, hcreate, hexecute⟩ := hsessions _ (hcuts Script)
  have hsame := hcreate closed 64 few many (by decide) (by decide)
  obtain ⟨hresult, houtput, -, hend⟩ := hexecute _ _
    (.answer few (.create 64) (.new {} _ _))
    (.answer many (.create 64) (.new {} _ _)) hsame [] []
    ⟨few, ["rv"], Bytes.zeros 64, []⟩ ⟨many, ["rv"], Bytes.zeros 64, []⟩
    .nil ⟨⟨rfl, rfl⟩, rfl, rfl⟩
  exact ⟨by decide, by decide, hresult, houtput, hend.client⟩

end Session

end NtpQuery
