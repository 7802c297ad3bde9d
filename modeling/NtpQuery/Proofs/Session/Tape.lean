import NtpQuery.Proofs.Command.Consultation
import NtpQuery.Proofs.Command.Frame
import NtpQuery.Proofs.Session.Early

/-!
# Writing to a tape

A tape takes all that is written to it and keeps what it holds, and nothing
that a run does depends on what it holds. So what a command writes is found
out one line at a time: lines that are on the tape already stay there, and
asking the server goes on as if they were not (`Run.query_told`).

The words of a command line are read before its command writes anything. If
they can be read, nothing has been written so far, and the client has
changed by queries at most (`Run.reading_ok`).
-/

namespace NtpQuery

open Text

namespace Client

variable {τ : Type} [Transport τ]

/-- A list that was empty and has entries after it has been read anew has
been read without a failure. -/
theorem refresh_ok_of_listed {w : World} {scratch : Bytes} {c : Client τ}
    (hnone : c.state.associations = [])
    (hlisted : (c.refresh w scratch).client.state.associations ≠ []) :
    (c.refresh w scratch).result = .ok () := by
  -- the query by itself leaves an empty list empty
  let q := Inquiry.listInquiry w c scratch
  have hquery : q.outcome.client.state.associations = [] := by
    rcases q.remembered_cases with
      heq | ⟨hstate, -⟩ | ⟨-, addr, hstate, -⟩
    · rw [heq]
      exact hnone
    · rw [hstate]
      exact hnone
    · rw [hstate]
      rfl
  unfold refresh at hlisted ⊢
  dsimp only at hlisted ⊢
  split at hlisted
  next => exact absurd hquery hlisted
  next =>
    split at hlisted
    next => exact absurd hquery hlisted
    next => rfl

end Client

/-- **Queries leave alone** how answers are shown. -/
theorem Scope.shown_of_queries {τ : Type} [Transport τ]
    {c c' : Client τ} (h : Scope.queries.Changes c c') :
    c'.state.raw = c.state.raw
      ∧ c'.state.showHostnames = c.state.showHostnames := by
  obtain ⟨_, _, _, _, rfl, -⟩ := h
  exact ⟨rfl, rfl⟩

namespace Run

variable {τ : Type} [Transport τ]

omit [Transport τ] in
/-- The run after some lines have been written to its tape. -/
def told (r : Run τ Tape) (lines : List String) : Run τ Tape :=
  { r with workspace := { r.workspace with
      output := r.workspace.output
        ++ lines.flatMap fun line => utf8 (line ++ "\n") } }

omit [Transport τ] in
theorem told_nil (r : Run τ Tape) : r.told [] = r := by
  unfold told
  rw [List.flatMap_nil, List.append_nil]

omit [Transport τ] in
/-- Lines are written behind those that are there. -/
theorem told_told (r : Run τ Tape) (lines more : List String) :
    (r.told lines).told more = r.told (lines ++ more) := by
  unfold told
  rw [List.flatMap_append, ← List.append_assoc]

/-- A line is written. -/
theorem perform_printLine (t : Tables Unit) (line : String)
    (r : Run τ Tape) :
    r.perform t (Routine.printLine line) = (.ok (), r.told [line]) := by
  unfold Routine.printLine told
  rw [perform_print, List.flatMap_singleton]
  rfl

/-- Lines are written one after the other. -/
theorem perform_printLines (t : Tables Unit) (lines : List String)
    (r : Run τ Tape) :
    r.perform t (lines.forM Routine.printLine) = (.ok (), r.told lines) := by
  induction lines generalizing r with
  | nil => exact Prod.ext rfl (told_nil r).symm
  | cons line lines ih =>
    show r.perform t (Routine.printLine line >>= fun _ =>
      lines.forM Routine.printLine) = _
    rw [perform_bind, perform_printLine]
    dsimp only
    rw [ih, told_told]
    rfl

/-- **Asking the server** does not depend on what has been written. -/
theorem query_told (r : Run τ Tape) (lines : List String) (opcode : Opcode)
    (assid : UInt16) (data : Bytes) :
    (r.told lines).query opcode assid data
      = ((r.query opcode assid data).1,
        (r.query opcode assid data).2.told lines) :=
  rfl

/-- It writes nothing. -/
theorem output_query (r : Run τ Tape) (opcode : Opcode) (assid : UInt16)
    (data : Bytes) :
    (r.query opcode assid data).2.workspace.output = r.workspace.output :=
  rfl

/-- It does not change how answers are shown. -/
theorem shown_query (r : Run τ Tape) (opcode : Opcode) (assid : UInt16)
    (data : Bytes) :
    (r.query opcode assid data).2.client.state.raw = r.client.state.raw
      ∧ (r.query opcode assid data).2.client.state.showHostnames
        = r.client.state.showHostnames :=
  Scope.shown_of_queries (Inquiry.changes_outcome ⟨r.world, r.client, opcode,
    assid, data, Workspace.scratch r.workspace⟩)

/-- **Words that have been read** have written nothing, and the client has
made queries at most. -/
theorem reading_ok {keyword : String} {slots : List Slot}
    {raws : List String} {i : Invocation} {r next : Run τ Tape}
    (h : Coercion.invocation keyword slots raws r = (.ok i, next)) :
    next.workspace.output = r.workspace.output
      ∧ Scope.queries.Changes r.client next.client := by
  rcases Coercion.invocation_ok h with rfl | ⟨rfl, hnone, hlisted⟩
  · exact ⟨rfl, Scope.changes_refl _ _⟩
  · have hclient := client_refreshForArgument r
    have hresult : r.refresh.1 = .ok () := by
      refine Client.refresh_ok_of_listed (List.length_eq_zero_iff.mp hnone)
        fun hempty => hlisted ?_
      show r.refreshForArgument.client.state.associations.length = 0
      rw [hclient, hempty]
      rfl
    refine ⟨?_, ?_⟩
    · show r.refreshForArgument.workspace.output = _
      unfold refreshForArgument
      rw [show r.refresh = (.ok (), r.refresh.2) from Prod.ext hresult rfl]
      rfl
    · show Scope.queries.Changes r.client r.refreshForArgument.client
      rw [hclient]
      exact Client.changes_refresh _ _ _

/-- **Carrying out a command line** whose words have been read: its command
is performed. -/
theorem dispatch_of_reading {tables : Tables Handler} {keyword : String}
    {raws : List String} {c : Command Handler} {i : Invocation}
    {r next : Run τ Tape} (hresolve : tables.resolve keyword = some c)
    (hread : Coercion.invocation keyword c.slots raws r = (.ok i, next)) :
    dispatch tables keyword raws r
      = ofCommand c.keyword
        (next.perform (tables.map fun _ => ()) (c.action i)) := by
  unfold dispatch
  rw [hresolve]
  rcases invoke_cases (tables.map fun _ => ()) c keyword raws r with
    ⟨e, r', hfail, -⟩ | ⟨i', r', hok, heq⟩
  · exact nomatch (congrArg Prod.fst (hread.symm.trans hfail))
  · obtain ⟨hi, rfl⟩ := Prod.mk.inj (hread.symm.trans hok)
    obtain rfl := Except.ok.inj hi
    exact heq

end Run

end NtpQuery
