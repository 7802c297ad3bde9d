import NtpQuery.Proofs.Client.Course
import NtpQuery.Proofs.Command.Coercion
import NtpQuery.Proofs.Command.Steady

/-!
# The queries of an operation

A command line makes queries in two places: reading an argument may read
the list of associations anew, and the routine of the command may ask the
server as often as it likes. `Run.inquiriesOf` lists all of them in order,
by carrying the command line out and keeping account.

An `Operation` is anything that can be done with a client: a query of its
own, reading the associations anew, choosing the server, a reset, other
defaults, or a command line. However operations follow one another, they
are a course of the client (`Operation.course_performAll`).
-/

namespace NtpQuery

open Client

variable {τ ω : Type} [Transport τ] [Workspace ω]

namespace Run

/-- The query that a run makes. -/
def inquiry (r : Run τ ω) (opcode : Opcode) (assid : UInt16)
    (data : Bytes) : Inquiry τ :=
  ⟨r.world, r.client, opcode, assid, data, Workspace.scratch r.workspace⟩

/-- The query by which the list of associations is read anew. -/
def listInquiry (r : Run τ ω) : Inquiry τ :=
  .listInquiry r.world r.client (Workspace.scratch r.workspace)

/-- The queries that a call makes. -/
def callInquiries (x : CommandCall × Run τ ω) : List (Inquiry τ) :=
  match x.1 with
  | .query opcode assid data => [x.2.inquiry opcode assid data]
  | .refresh => [x.2.listInquiry]
  | _ => []

/-- **The queries of a command line**: those of reading its arguments,
then those of its routine. -/
def inquiriesOf (tables : Tables Handler) (keyword : String)
    (raws : List String) (r : Run τ ω) : List (Inquiry τ) :=
  match tables.resolve keyword with
  | none => []
  | some c =>
    let read := Coercion.invocation keyword c.slots raws (Noted.mk r [])
    read.2.before.map listInquiry
      ++ match read.1 with
        | .error _ => []
        | .ok i =>
          (Program.calls (answer (tables.map fun _ => ())) (c.action i).run
            read.2.now).flatMap callInquiries

variable {I : List (Inquiry τ) → Client τ → Prop}
variable {made : List (Inquiry τ)}

/-- **A call that makes settings** upholds what commands uphold. -/
theorem upheld_answer (hI : Upheld I) (catalogue : Tables Unit)
    {call : CommandCall} {r : Run τ ω} (h : I made r.client)
    (hcall : call.Settles Setting.Admissible r) :
    I (made ++ callInquiries (call, r))
      (answer catalogue call r).2.client := by
  cases call with
  | query opcode assid data =>
    exact hI.query (r.inquiry opcode assid data) h
  | refresh => exact hI.refresh h r.world (Workspace.scratch r.workspace)
  | setState s =>
    obtain ⟨x, hx, rfl⟩ := hcall
    exact none_made (hI.settle hx h)
  | selectHost name family =>
    exact none_made (hI.selectHost h r.world name family)
  | adopt d => exact hcall.elim
  | reset => exact hcall.elim
  | _ => exact none_made h

/-- **A program does** if its calls make such settings only. -/
theorem upheld_run (hI : Upheld I) (catalogue : Tables Unit) {α : Type}
    (p : Program CommandCall.Answer α) {r : Run τ ω} (h : I made r.client)
    (hp : ∀ x ∈ p.calls (answer catalogue) r,
      x.1.Settles Setting.Admissible x.2) :
    I (made ++ (p.calls (answer catalogue) r).flatMap callInquiries)
      (p.run (answer catalogue) r).2.client := by
  induction p generalizing made r with
  | done a => exact none_made h
  | call call next ih =>
    have hfirst := upheld_answer hI catalogue h
      (hp (call, r) List.mem_cons_self)
    have hrest := ih _ hfirst fun x hx => hp x (List.mem_cons_of_mem _ hx)
    rw [List.append_assoc] at hrest
    exact hrest

/-- Reading the list of associations for an argument is one query. -/
theorem upheld_refreshForArgument (hI : Upheld I) {r : Run τ ω}
    (h : I made r.client) :
    I (made ++ [r.listInquiry]) r.refreshForArgument.client := by
  have hrefresh := hI.refresh h r.world (Workspace.scratch r.workspace)
  unfold refreshForArgument
  split
  next hr =>
    have hclient := congrArg (fun x => x.2.client) hr
    exact hclient ▸ hrefresh
  next hr =>
    have hclient := congrArg (fun x => x.2.client) hr
    exact hclient ▸ hrefresh

/-- **Reading arguments** upholds what commands uphold. -/
theorem upheld_invocation (hI : Upheld I) {r : Run τ ω}
    (h : I made r.client) (keyword : String) (slots : List Slot)
    (raws : List String) :
    let read := Coercion.invocation keyword slots raws (Noted.mk r [])
    (Coercion.invocation keyword slots raws r).1 = read.1
      ∧ read.2.now = (Coercion.invocation keyword slots raws r).2
      ∧ I (made ++ read.2.before.map listInquiry) read.2.now.client := by
  have halike : Surroundings.Alike fun (k : Run τ ω) (n : Noted (Run τ ω)) =>
      n.now = k ∧ I (made ++ n.before.map listInquiry) n.now.client := by
    refine Noted.alike fun n hn => ?_
    show I (made ++ (n.before ++ [n.now]).map listInquiry) _
    rw [List.map_append, ← List.append_assoc]
    exact upheld_refreshForArgument hI hn
  have hstart : r = r ∧ I (made ++ List.map listInquiry
      (Noted.mk r []).before) r.client :=
    ⟨rfl, none_made h⟩
  exact Coercion.invocation_alike halike hstart keyword slots raws

/-- **A command line upholds** what commands uphold, if the routines of the
commands make admissible settings only. -/
theorem upheld_dispatch (hI : Upheld I) {tables : Tables Handler}
    (htables : ∀ d ∈ tables.commands, ∀ i,
      Routine.Settles τ ω Setting.Admissible (d.action i))
    (keyword : String) (raws : List String) {r : Run τ ω}
    (h : I made r.client) :
    I (made ++ inquiriesOf tables keyword raws r)
      (dispatch tables keyword raws r).2.client := by
  unfold inquiriesOf dispatch
  cases hresolve : tables.resolve keyword with
  | none => exact none_made h
  | some d =>
    -- the arguments come out the same whether account is kept or not
    obtain ⟨hresult, hnow, hread⟩ :=
      upheld_invocation hI h keyword d.slots raws
    dsimp only at hresult hnow hread ⊢
    unfold invoke
    generalize Coercion.invocation keyword d.slots raws r = q
      at hresult hnow ⊢
    obtain ⟨result, r'⟩ := q
    dsimp only at hresult hnow
    rw [← hresult]
    cases result with
    | error e =>
      rw [List.append_nil, ← hnow]
      exact hread
    | ok i =>
      have hd := htables d (Tables.mem_commands_of_resolve hresolve) i
      have hrun := upheld_run hI (tables.map fun _ => ()) (d.action i).run
        hread (hd _ _)
      rw [List.append_assoc, hnow] at hrun
      dsimp only
      rw [hnow]
      split
      next hend =>
        have hclient := congrArg (fun x => x.2.client) hend
        exact hclient ▸ hrun
      next hend =>
        have hclient := congrArg (fun x => x.2.client) hend
        exact hclient ▸ hrun

end Run

/-- **An operation** on a client, with all that it is given; command
lines write and receive in a workspace `ω`. -/
inductive Operation (ω : Type) where
  /-- Asking the server. -/
  | query (w : World) (opcode : Opcode) (assid : UInt16)
    (data scratch : Bytes)
  /-- Reading the list of associations anew. -/
  | refresh (w : World) (scratch : Bytes)
  /-- Choosing the server. -/
  | selectHost (w : World) (name : String) (family : AddressFamily)
  /-- A reset. -/
  | reset
  /-- Taking on other defaults and resetting to them. -/
  | adopt (d : Defaults)
  /-- Carrying out a command line. -/
  | command (w : World) (keyword : String) (raws : List String)
    (workspace : ω) (last : ErrorRecord)

namespace Operation

/-- The client after an operation. -/
def perform (c : Client τ) : Operation ω → Client τ
  | query w opcode assid data scratch =>
    (c.query w opcode assid data scratch).client
  | refresh w scratch => (c.refresh w scratch).client
  | selectHost w name family => (c.selectHost w name family).2
  | reset => c.reset
  | adopt d => c.adopt d
  | command w keyword raws workspace last =>
    (Run.dispatch Standard.tables keyword raws
      ⟨w, c, workspace, last, []⟩).2.client

/-- **The queries of an operation**, oldest first. -/
def inquiries (c : Client τ) : Operation ω → List (Inquiry τ)
  | query w opcode assid data scratch =>
    [⟨w, c, opcode, assid, data, scratch⟩]
  | refresh w scratch => [.listInquiry w c scratch]
  | selectHost _ _ _ | reset | adopt _ => []
  | command w keyword raws workspace last =>
    Run.inquiriesOf Standard.tables keyword raws
      ⟨w, c, workspace, last, []⟩

/-- The client after operations. -/
def performAll : List (Operation ω) → Client τ → Client τ
  | [], c => c
  | op :: ops, c => performAll ops (op.perform c)

/-- **The queries of operations** that follow one another. -/
def inquiriesAll : List (Operation ω) → Client τ → List (Inquiry τ)
  | [], _ => []
  | op :: ops, c => op.inquiries c ++ inquiriesAll ops (op.perform c)

variable {c b : Client τ} {made : List (Inquiry τ)}

/-- **Every operation is a course.** -/
theorem course_perform (h : Course c made b) (op : Operation ω) :
    Course c (made ++ op.inquiries b) (op.perform b) := by
  cases op with
  | query w opcode assid data scratch =>
    exact h.query ⟨w, b, opcode, assid, data, scratch⟩
  | refresh w scratch => exact (Course.upheld c).refresh h w scratch
  | selectHost w name family =>
    exact none_made ((Course.upheld c).selectHost h w name family)
  | reset => exact none_made (h.adopt b.defaults)
  | adopt d => exact none_made (h.adopt d)
  | command w keyword raws workspace last =>
    exact Run.upheld_dispatch (Course.upheld c)
      (fun d hd i => Standard.settles hd i) keyword raws h

/-- **Operations that follow one another are a course.** -/
theorem course_performAll (h : Course c made b)
    (ops : List (Operation ω)) :
    Course c (made ++ inquiriesAll ops b) (performAll ops b) := by
  induction ops generalizing made b with
  | nil => exact none_made h
  | cons op ops ih =>
    have hrest := ih (course_perform h op)
    rw [List.append_assoc] at hrest
    exact hrest

end Operation

end NtpQuery
