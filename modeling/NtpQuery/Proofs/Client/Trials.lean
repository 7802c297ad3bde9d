import NtpQuery.Proofs.Assembly.Offers
import NtpQuery.Proofs.Client.Collect

/-!
# The trials of a query

A query is a row of trials. In each, the request is sent once and then
listened for: datagrams come in, each is awaited for so long, and one of
them, or a wait that fails, ends the trial. Whether there is another trial
depends on how this one has ended.

What is heard in a trial and what comes of it are related by
`Client.Hears`, and the trials of a query and its result by
`Client.Tries`, with a constructor for each thing that can happen.
`Client.Conduct` says what a reader of the record wants to know, and all
of it is read off the two relations (`Client.Tries.conduct`).
-/

namespace NtpQuery

/-- **What has been heard**: arrivals, each with the time for which it was
awaited, oldest first. -/
abbrev Heard := List (UInt64 × Arrival)

namespace Client

/-! ## One trial -/

section Hearing

variable (opcode : Opcode) (sequence : UInt16)

/-- The assembly after one more arrival. -/
def hear (a : Assembly) : Arrival → Assembly
  | .failure _ => a
  | .datagram d =>
    match verdict opcode sequence d with
    | .fragment f => a.offer f
    | _ => a

/-- The assembly after some more arrivals. -/
def hearAll (a : Assembly) (heard : Heard) : Assembly :=
  heard.foldl (fun a x => hear opcode sequence a x.2) a

/-- **Whether a fragment has been accepted** in a trial in which so much
has been heard: whether one has been heard at all (`begun_iff`). -/
def Begun (heard : Heard) : Prop :=
  (hearAll opcode sequence .empty heard).isEmpty = false

variable (first further : UInt64)

/-- **What is heard from now on, and what comes of it**, when these
fragments have been accepted. -/
inductive Hears : Assembly → Heard → Except ClientError Response → Prop where
  /-- A wait fails. -/
  | failed {a : Assembly} (e : NetError) :
    Hears a [(patience first further a, .failure e)]
      (.error (waitFailure a e))
  /-- A datagram is passed over. -/
  | foreign {a : Assembly} {heard : Heard} {r : Except ClientError Response}
    {d : Bytes} : verdict opcode sequence d = .foreign → Hears a heard r →
    Hears a ((patience first further a, .datagram d) :: heard) r
  /-- A datagram reports an error. -/
  | refused {a : Assembly} {d : Bytes} {code : UInt8} :
    verdict opcode sequence d = .refused code →
    Hears a [(patience first further a, .datagram d)]
      (.error (.refused code))
  /-- A fragment does not go with those that have been accepted. -/
  | clash {a : Assembly} {d : Bytes} {f : Fragment} {e : ProtocolError} :
    verdict opcode sequence d = .fragment f → a.insert f = .error e →
    Hears a [(patience first further a, .datagram d)] (.error (.protocol e))
  /-- A fragment completes the response. -/
  | complete {a b : Assembly} {d : Bytes} {f : Fragment} :
    verdict opcode sequence d = .fragment f → a.insert f = .ok b →
    b.isComplete = true →
    Hears a [(patience first further a, .datagram d)] (.ok b.response)
  /-- A fragment is accepted, and the response is not complete yet. -/
  | accepted {a b : Assembly} {heard : Heard}
    {r : Except ClientError Response} {d : Bytes} {f : Fragment} :
    verdict opcode sequence d = .fragment f → a.insert f = .ok b →
    b.isComplete = false → Hears b heard r →
    Hears a ((patience first further a, .datagram d) :: heard) r

end Hearing

section Hearing

variable {opcode : Opcode} {sequence : UInt16} {a b : Assembly}
variable {d : Bytes}

/-- **A response to the request with the E bit** reports an error, the high
byte of its status word. -/
theorem verdict_of_error {f : Fragment} (hdecode : Fragment.decode d = .ok f)
    (hresponse : f.header.response = true)
    (hsequence : f.header.sequence = sequence)
    (hopcode : f.header.opcode = opcode.code)
    (herror : f.header.error = true) :
    verdict opcode sequence d
      = .refused (UInt8.ofNat (f.header.status.toNat / 256)) := by
  unfold verdict
  rw [hdecode]
  simp [hresponse, hsequence, hopcode, herror]

/-- A datagram that is passed over changes nothing. -/
theorem hearAll_cons_of_foreign
    (h : verdict opcode sequence d = .foreign) (wait : UInt64)
    (heard : Heard) :
    hearAll opcode sequence a ((wait, .datagram d) :: heard)
      = hearAll opcode sequence a heard := by
  rw [hearAll, List.foldl_cons]
  simp only [hear, h]
  rfl

/-- A fragment that is accepted is held from then on. -/
theorem hearAll_cons_of_insert {f : Fragment}
    (h : verdict opcode sequence d = .fragment f)
    (hinsert : a.insert f = .ok b) (wait : UInt64) (heard : Heard) :
    hearAll opcode sequence a ((wait, .datagram d) :: heard)
      = hearAll opcode sequence b heard := by
  rw [hearAll, List.foldl_cons]
  simp only [hear, h, Assembly.offer, hinsert]
  rfl

/-- An assembly that holds a fragment goes on holding it. -/
theorem isEmpty_hearAll (ha : a.isEmpty = false) (heard : Heard) :
    (hearAll opcode sequence a heard).isEmpty = false := by
  induction heard generalizing a with
  | nil => exact ha
  | cons x heard ih =>
    obtain ⟨wait, x⟩ := x
    refine ih ?_
    show (hear opcode sequence a x).isEmpty = false
    unfold hear
    split
    · exact ha
    · split
      · exact Assembly.isEmpty_offer ha _
      · exact ha

/-- **A trial has begun** as soon as a fragment has been heard: the first
one is always accepted. -/
theorem begun_iff {heard : Heard} :
    Begun opcode sequence heard
      ↔ ∃ wait d f, (wait, .datagram d) ∈ heard
        ∧ verdict opcode sequence d = .fragment f := by
  unfold Begun
  induction heard with
  | nil => exact iff_of_false (by simp [hearAll]) (by simp)
  | cons x heard ih =>
    obtain ⟨wait, x⟩ := x
    by_cases hfirst : ∃ d f, x = .datagram d
        ∧ verdict opcode sequence d = .fragment f
    · obtain ⟨d, f, rfl, hf⟩ := hfirst
      refine iff_of_true ?_ ⟨wait, d, f, List.mem_cons_self, hf⟩
      rw [hearAll_cons_of_insert hf (Assembly.empty_insert f)]
      exact isEmpty_hearAll (Assembly.isEmpty_accept ..) heard
    · have hsame : hearAll opcode sequence .empty ((wait, x) :: heard)
          = hearAll opcode sequence .empty heard := by
        show hearAll opcode sequence (hear opcode sequence .empty x) heard = _
        unfold hear
        split
        · rfl
        · split
          next d _ f hf => exact absurd ⟨d, f, rfl, hf⟩ hfirst
          next => rfl
      rw [hsame, ih]
      constructor
      · rintro ⟨wait', d, f, hmem, hf⟩
        exact ⟨wait', d, f, List.mem_cons_of_mem _ hmem, hf⟩
      · rintro ⟨wait', d, f, hmem, hf⟩
        rcases List.mem_cons.mp hmem with heq | hmem
        · exact absurd ⟨d, f, (Prod.mk.inj heq).2.symm, hf⟩ hfirst
        · exact ⟨wait', d, f, hmem, hf⟩

end Hearing

namespace Hears

variable {opcode : Opcode} {sequence : UInt16} {first further : UInt64}
variable {a : Assembly} {r : Except ClientError Response}

/-- **In the middle of a trial**, what is still heard goes with the
fragments that have been accepted by then. -/
theorem drop {earlier rest : Heard}
    (h : Hears opcode sequence first further a (earlier ++ rest) r)
    (hrest : rest ≠ []) :
    Hears opcode sequence first further
      (hearAll opcode sequence a earlier) rest r := by
  induction earlier generalizing a with
  | nil => exact h
  | cons x earlier ih =>
    have hmore : earlier ++ rest ≠ [] :=
      List.append_ne_nil_of_right_ne_nil earlier hrest
    rw [List.cons_append] at h
    generalize earlier ++ rest = l at h hmore ih
    cases h with
    | foreign hverdict hlater =>
      rw [hearAll_cons_of_foreign hverdict]
      exact ih hlater
    | accepted hverdict hinsert _ hlater =>
      rw [hearAll_cons_of_insert hverdict hinsert]
      exact ih hlater
    | _ => exact absurd rfl hmore

/-- **Each wait** is as long as the fragments that have been accepted
say. -/
theorem wait_eq {wait : UInt64} {x : Arrival} {later : Heard}
    (h : Hears opcode sequence first further a ((wait, x) :: later) r) :
    wait = patience first further a := by
  cases h <;> rfl

/-- **A wait that fails** ends the trial. -/
theorem of_failure {wait : UInt64} {e : NetError} {later : Heard}
    (h : Hears opcode sequence first further a
      ((wait, .failure e) :: later) r) :
    later = [] ∧ r = .error (waitFailure a e) := by
  cases h
  exact ⟨rfl, rfl⟩

/-- **A datagram that reports an error** ends the trial. -/
theorem of_refused {wait : UInt64} {d : Bytes} {code : UInt8} {later : Heard}
    (h : Hears opcode sequence first further a
      ((wait, .datagram d) :: later) r)
    (hverdict : verdict opcode sequence d = .refused code) :
    later = [] ∧ r = .error (.refused code) := by
  cases h with
  | refused h' =>
    obtain rfl := Verdict.refused.inj (h'.symm.trans hverdict)
    exact ⟨rfl, rfl⟩
  | _ h' => exact absurd (h'.symm.trans hverdict) (by simp)

/-- **A trial times out** if its last wait does, and no fragment has been
accepted by then. -/
theorem exists_of_timeout {heard : Heard}
    (h : Hears opcode sequence first further a heard r)
    (hr : r = .error .timeout) :
    ∃ earlier wait e, heard = earlier ++ [(wait, .failure e)]
      ∧ e.isTimeout = true
      ∧ (hearAll opcode sequence a earlier).isEmpty = true := by
  induction h with
  | @failed a e =>
    unfold waitFailure at hr
    split at hr
    next htime =>
      split at hr
      next hempty => exact ⟨[], _, e, rfl, htime, hempty⟩
      next => exact absurd hr (by simp)
    next => exact absurd hr (by simp)
  | foreign hverdict _ ih =>
    obtain ⟨earlier, wait, e, rfl, htime, hempty⟩ := ih hr
    refine ⟨_ :: earlier, wait, e, rfl, htime, ?_⟩
    rw [hearAll_cons_of_foreign hverdict]
    exact hempty
  | refused | clash | complete => exact absurd hr (by simp)
  | accepted hverdict hinsert _ _ ih =>
    obtain ⟨earlier, wait, e, rfl, htime, hempty⟩ := ih hr
    refine ⟨_ :: earlier, wait, e, rfl, htime, ?_⟩
    rw [hearAll_cons_of_insert hverdict hinsert]
    exact hempty

end Hears

/-! ## One trial after another -/

/-- **One sending of a request**, and what is heard then. -/
structure Trial where
  /-- The error that sending fails with, if any. -/
  refusal : Option NetError
  /-- What is heard. -/
  heard : Heard

namespace Trial

/-- The record of a trial. -/
def events (peer : SocketAddr) (request : Bytes) (t : Trial) :
    List NetEvent :=
  .send peer request t.refusal :: t.heard.map fun x => .recv x.1 x.2

section Ending

variable (opcode : Opcode) (sequence : UInt16)

/-- **A trial that nothing answers**: its last wait runs out of time, and
no fragment has been accepted by then. -/
def Silent (t : Trial) : Prop :=
  t.refusal = none ∧ ∃ earlier wait e,
    t.heard = earlier ++ [(wait, .failure e)] ∧ e.isTimeout = true
      ∧ ¬ Begun opcode sequence earlier

variable (first further : UInt64)

/-- **What comes of a trial.** A datagram that cannot be sent is not
listened for. -/
def Ends (t : Trial) (r : Except ClientError Response) : Prop :=
  match t.refusal with
  | some e => t.heard = [] ∧ r = .error (.net e)
  | none => Hears opcode sequence first further .empty t.heard r

end Ending

end Trial

section Trying

variable (opcode : Opcode) (sequence : UInt16) (first further : UInt64)

/-- **The trials of a query** that may be repeated so often, and its
result. -/
inductive Tries :
    Nat → List Trial → Except ClientError Response → Prop where
  /-- The last trial is answered, or may not be repeated. -/
  | last {n : Nat} {t : Trial} {r : Except ClientError Response} :
    t.Ends opcode sequence first further r → (r = .error .timeout → n = 0) →
    Tries n [t] r
  /-- A trial that times out is repeated. -/
  | again {n : Nat} {t : Trial} {trials : List Trial}
    {r : Except ClientError Response} :
    t.Ends opcode sequence first further (.error .timeout) →
    Tries n trials r → Tries (n + 1) (t :: trials) r

/-- **How a query conducts itself** that may be repeated so often, as its
trials and its result show. -/
structure Conduct (retries : Nat) (trials : List Trial)
    (result : Except ClientError Response) : Prop where
  /-- The request is sent no more often than it may be. -/
  most : trials.length ≤ retries + 1
  /-- It is sent again if and only if nothing has answered and it may be
  repeated. -/
  again : ∀ {front t back}, trials = front ++ t :: back →
    (back ≠ [] ↔ t.Silent opcode sequence ∧ front.length < retries)
  /-- The query times out if and only if nothing has answered any of as
  many trials as there may be. -/
  timeout : result = .error .timeout
    ↔ trials.length = retries + 1 ∧ ∀ t ∈ trials, t.Silent opcode sequence
  /-- A datagram that cannot be sent ends the query. -/
  refusal : ∀ {front t back e}, trials = front ++ t :: back →
    t.refusal = some e →
    t.heard = [] ∧ back = [] ∧ result = .error (.net e)
  /-- The first wait of a trial is the first time, and so is each until a
  fragment has been accepted; from then on it is the further time. -/
  wait : ∀ {front t back earlier wait x later},
    trials = front ++ t :: back → t.heard = earlier ++ (wait, x) :: later →
    (Begun opcode sequence earlier → wait = further)
      ∧ (¬ Begun opcode sequence earlier → wait = first)
  /-- When a fragment has been accepted, a wait that runs out of time ends
  the query. -/
  incomplete : ∀ {front t back earlier wait e later},
    trials = front ++ t :: back →
    t.heard = earlier ++ (wait, .failure e) :: later →
    e.isTimeout = true → Begun opcode sequence earlier →
    later = [] ∧ back = [] ∧ result = .error (.protocol .incomplete)
  /-- So does any other failure, at any time. -/
  failure : ∀ {front t back earlier wait e later},
    trials = front ++ t :: back →
    t.heard = earlier ++ (wait, .failure e) :: later →
    e.isTimeout = false →
    later = [] ∧ back = [] ∧ result = .error (.net e)
  /-- So does a response to the request with the E bit. Its error is the
  high byte of its status word. -/
  refused : ∀ {front t back earlier wait d later f},
    trials = front ++ t :: back →
    t.heard = earlier ++ (wait, .datagram d) :: later →
    Fragment.decode d = .ok f → f.header.response = true →
    f.header.sequence = sequence → f.header.opcode = opcode.code →
    f.header.error = true →
    later = [] ∧ back = []
      ∧ result = .error (.refused (UInt8.ofNat (f.header.status.toNat / 256)))

end Trying

section

variable {opcode : Opcode} {sequence : UInt16} {first further : UInt64}
variable {t : Trial} {r : Except ClientError Response}

/-- **A trial times out if and only if nothing answers it.** -/
theorem Trial.Ends.timeout_iff
    (h : t.Ends opcode sequence first further r) :
    r = .error .timeout ↔ t.Silent opcode sequence := by
  obtain ⟨refusal, heard⟩ := t
  cases refusal with
  | some e =>
    obtain ⟨-, rfl⟩ := h
    exact iff_of_false (by simp) fun hsilent => by simp [Silent] at hsilent
  | none =>
    constructor
    · intro hr
      obtain ⟨earlier, wait, e, hheard, htime, hempty⟩ :=
        Hears.exists_of_timeout h hr
      exact ⟨rfl, earlier, wait, e, hheard, htime, by simp [Begun, hempty]⟩
    · rintro ⟨-, earlier, wait, e, hheard, htime, hbegun⟩
      obtain rfl : heard = _ := hheard
      obtain ⟨-, rfl⟩ := (Hears.drop h (by simp)).of_failure
      rw [Begun, Bool.not_eq_false] at hbegun
      rw [waitFailure, if_pos htime, if_pos hbegun]

/-- What is heard in a trial goes with the fragments that have been
accepted by then. -/
theorem Trial.Ends.hears (h : t.Ends opcode sequence first further r)
    {earlier later : Heard} {x : UInt64 × Arrival}
    (hheard : t.heard = earlier ++ x :: later) :
    Hears opcode sequence first further
      (hearAll opcode sequence .empty earlier) (x :: later) r := by
  unfold Trial.Ends at h
  split at h
  · rw [h.1] at hheard
    exact absurd hheard (by simp)
  · rw [hheard] at h
    exact h.drop (List.cons_ne_nil x later)

namespace Tries

variable {n : Nat} {trials : List Trial}

/-- There is a trial. -/
theorem ne_nil (h : Tries opcode sequence first further n trials r) :
    trials ≠ [] := by
  cases h <;> exact List.cons_ne_nil _ _

/-- **Each trial** is the last one and gives the result, or it times out
and is repeated. -/
theorem split (h : Tries opcode sequence first further n trials r)
    {front back : List Trial} (htrials : trials = front ++ t :: back) :
    (back = [] ∧ t.Ends opcode sequence first further r
        ∧ (r = .error .timeout → front.length = n))
      ∨ (back ≠ [] ∧ front.length < n
        ∧ t.Ends opcode sequence first further (.error .timeout)) := by
  induction h generalizing front with
  | @last n t' r hends hlast =>
    cases front with
    | nil =>
      obtain ⟨rfl, rfl⟩ := List.cons_eq_cons.mp htrials
      exact Or.inl ⟨rfl, hends, fun hr => (hlast hr).symm⟩
    | cons t'' front => exact absurd htrials (by simp)
  | @again n t' trials r hends hmore ih =>
    cases front with
    | nil =>
      obtain ⟨rfl, rfl⟩ := List.cons_eq_cons.mp htrials
      exact Or.inr ⟨hmore.ne_nil, Nat.zero_lt_succ n, hends⟩
    | cons t'' front =>
      rcases ih (List.cons_eq_cons.mp htrials).2 with
        ⟨hback, hlast, hn⟩ | ⟨hback, hn, hagain⟩
      · exact Or.inl ⟨hback, hlast, fun hr => congrArg (· + 1) (hn hr)⟩
      · exact Or.inr ⟨hback, Nat.succ_lt_succ hn, hagain⟩

/-- There are no more trials than there may be. -/
theorem length_le (h : Tries opcode sequence first further n trials r) :
    trials.length ≤ n + 1 := by
  induction h with
  | last => exact Nat.succ_le_succ (Nat.zero_le _)
  | again _ _ ih => exact Nat.succ_le_succ ih

/-- **The query times out** if and only if nothing answers any trial, and
there are as many as there may be. -/
theorem timeout_iff (h : Tries opcode sequence first further n trials r) :
    r = .error .timeout
      ↔ trials.length = n + 1 ∧ ∀ t ∈ trials, t.Silent opcode sequence := by
  induction h with
  | last hends hlast =>
    rw [List.forall_mem_singleton, ← hends.timeout_iff]
    constructor
    · intro hr
      rw [hlast hr]
      exact ⟨rfl, hr⟩
    · exact And.right
  | again hends _ ih =>
    rw [ih, List.forall_mem_cons, List.length_cons, Nat.succ_inj,
      ← hends.timeout_iff]
    simp

/-- A trial that does not time out is the last one, and gives the
result. -/
theorem last_of_ne (h : Tries opcode sequence first further n trials r)
    {front back : List Trial} (htrials : trials = front ++ t :: back)
    {P : Except ClientError Response → Prop}
    (hP : ∀ r', t.Ends opcode sequence first further r' → P r')
    (hne : ¬ P (.error .timeout)) : back = [] ∧ P r := by
  rcases h.split htrials with ⟨hback, hends, -⟩ | ⟨-, -, hends⟩
  · exact ⟨hback, hP r hends⟩
  · exact absurd (hP _ hends) hne

/-- **The conduct of a query** is as its trials say. -/
theorem conduct (h : Tries opcode sequence first further n trials r) :
    Conduct opcode sequence first further n trials r where
  most := h.length_le
  again {front t back} htrials := by
    rcases h.split htrials with ⟨rfl, hends, hn⟩ | ⟨hback, hn, hends⟩
    · refine iff_of_false (not_not_intro rfl) fun ⟨hsilent, hless⟩ => ?_
      exact Nat.ne_of_lt hless (hn (hends.timeout_iff.mpr hsilent))
    · exact iff_of_true hback ⟨hends.timeout_iff.mp rfl, hn⟩
  timeout := h.timeout_iff
  refusal {front t back e} htrials hrefusal := by
    have hP : ∀ r', t.Ends opcode sequence first further r' →
        t.heard = [] ∧ r' = .error (.net e) := by
      intro r' hends
      unfold Trial.Ends at hends
      rwa [hrefusal] at hends
    obtain ⟨hback, hheard, hr⟩ := h.last_of_ne htrials hP (by simp)
    exact ⟨hheard, hback, hr⟩
  wait {front t back earlier wait x later} htrials hheard := by
    have hwait : wait = patience first further
        (hearAll opcode sequence .empty earlier) := by
      rcases h.split htrials with ⟨-, hends, -⟩ | ⟨-, -, hends⟩
      · exact (hends.hears hheard).wait_eq
      · exact (hends.hears hheard).wait_eq
    unfold Begun
    rw [hwait, patience]
    constructor
    · intro hbegun
      rw [hbegun]
      rfl
    · intro hbegun
      rw [Bool.not_eq_false] at hbegun
      rw [hbegun]
      rfl
  incomplete {front t back earlier wait e later} htrials hheard htime
      hbegun := by
    have hP : ∀ r', t.Ends opcode sequence first further r' →
        later = [] ∧ r' = .error (.protocol .incomplete) := by
      intro r' hends
      obtain ⟨hlater, hr⟩ := (hends.hears hheard).of_failure
      refine ⟨hlater, hr.trans ?_⟩
      rw [waitFailure, if_pos htime, if_neg (by simpa [Begun] using hbegun)]
    obtain ⟨hback, hlater, hr⟩ := h.last_of_ne htrials hP (by simp)
    exact ⟨hlater, hback, hr⟩
  failure {front t back earlier wait e later} htrials hheard htime := by
    have hP : ∀ r', t.Ends opcode sequence first further r' →
        later = [] ∧ r' = .error (.net e) := by
      intro r' hends
      obtain ⟨hlater, hr⟩ := (hends.hears hheard).of_failure
      refine ⟨hlater, hr.trans ?_⟩
      rw [waitFailure, if_neg (by simp [htime])]
    obtain ⟨hback, hlater, hr⟩ := h.last_of_ne htrials hP (by simp)
    exact ⟨hlater, hback, hr⟩
  refused {front t back earlier wait d later f} htrials hheard hdecode
      hresponse hsequence hopcode herror := by
    have hverdict := verdict_of_error hdecode hresponse hsequence hopcode
      herror
    have hP : ∀ r', t.Ends opcode sequence first further r' →
        later = [] ∧ r' = .error
          (.refused (UInt8.ofNat (f.header.status.toNat / 256))) := by
      intro r' hends
      exact (hends.hears hheard).of_refused hverdict
    obtain ⟨hback, hlater, hr⟩ := h.last_of_ne htrials hP (by simp)
    exact ⟨hlater, hback, hr⟩

end Tries

end

end Client

end NtpQuery
