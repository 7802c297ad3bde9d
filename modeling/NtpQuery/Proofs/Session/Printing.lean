import NtpQuery.Proofs.Session.Alike
import NtpQuery.Proofs.Session.Lifecycle
import NtpQuery.Proofs.Session.Tape

/-!
# What comes of a command line

Of a command line in an open session there are four things to be told: how
it ends, the client that it leaves, the lines that it writes, and the front
of them that the caller gets. All four are known once the command line has
been carried out on a tape, whatever the tape holds already
(`Session.comesTo_of_dispatch`).
-/

namespace NtpQuery

open Text

namespace Session

variable {τ : Type} [Transport τ]

/-- **What comes of a command line**, whatever buffer the caller lends. -/
structure ComesTo (s : Session τ) (w : World) (argv : List String)
    (result : Except Failure Unit) (client : Client τ)
    (lines : List String) : Prop where
  /-- How it ends. -/
  result : ∀ out, (s.execute w argv out).result = result
  /-- The client that it leaves, with its transport. -/
  client : ∀ out, (s.execute w argv out).session.client = client
  /-- All that it writes. -/
  written : s.written w argv = lines.flatMap fun line => utf8 (line ++ "\n")
  /-- What the caller gets of it: as much as fits both buffers. -/
  output : ∀ out, (s.execute w argv out).output
    = fill out.length
      ((lines.flatMap fun line => utf8 (line ++ "\n")).take s.capacity)

variable {s : Session τ}

/-- **A command line in an open session** comes to what it comes to on a
blank tape. -/
theorem comesTo_of_tape (hs : s.Reached) (hready : s.isReady = true)
    {w : World} {keyword : String} {raws : List String}
    {result : Except Failure Unit} {client : Client τ} {lines : List String}
    (h : ∀ b, s.buffer = some b →
      let r := s.start w (Tape.mk [] (Bytes.zeros b.scratch.length))
      ∃ r', Run.dispatch s.tables keyword raws r = (result, Run.told r' lines)
        ∧ r'.client = client
        ∧ r'.workspace.output = r.workspace.output) :
    s.ComesTo w (keyword :: raws) result client lines := by
  obtain ⟨-, b, hbuffer⟩ := exists_buffer_of_ready hready
  obtain ⟨r', hdispatch, hclient', houtput⟩ := h b hbuffer
  have htape : s.onBlankTape w (keyword :: raws)
      = some (result, Run.told r' lines) := by
    unfold onBlankTape
    rw [hbuffer]
    exact congrArg some hdispatch
  have hwritten : s.written w (keyword :: raws)
      = lines.flatMap fun line => utf8 (line ++ "\n") := by
    unfold written
    rw [htape]
    show r'.workspace.output ++ _ = _
    rw [houtput]
    rfl
  obtain ⟨hfront, hsame⟩ := run_output hs w (keyword :: raws)
  obtain ⟨hresult, hclient, -⟩ := hsame _ htape
  refine ⟨fun _ => hresult, fun _ => ?_, hwritten, fun out => ?_⟩
  · exact (record_frame _ _).1.trans (hclient.trans hclient')
  · show fill out.length (s.run w (keyword :: raws)).output = _
    rw [hfront, hwritten]

/-- **A command line in an open session** comes to what it comes to on any
tape. -/
theorem comesTo_of_dispatch (hs : s.Reached) (hready : s.isReady = true)
    {w : World} {keyword : String} {raws : List String}
    {result : Except Failure Unit} {client : Client τ} {lines : List String}
    (h : ∀ r : Run τ Tape, r.client = s.client →
      Run.dispatch s.tables keyword raws r
        = (result, Run.told { r with client := client } lines)) :
    s.ComesTo w (keyword :: raws) result client lines :=
  comesTo_of_tape hs hready fun _ _ => ⟨_, h _ rfl, rfl, rfl⟩

/-- **A command line leaves an open session open**, in a state that can be
reached and with the same commands. -/
theorem Reached.execute (hs : s.Reached) (w : World) (argv : List String)
    (out : Bytes) :
    let e := s.execute w argv out
    e.session.Reached ∧ e.session.isReady = s.isReady
      ∧ e.session.tables = s.tables := by
  intro e
  have he : e.session.Reached := hs.answer w (.execute argv out)
  obtain ⟨hopened, -, htables⟩ := hs.coherent.execute_frame w argv out
  refine ⟨he, ?_, htables⟩
  rw [he.coherent.isReady_eq, hs.coherent.isReady_eq]
  exact hopened

end Session

end NtpQuery
