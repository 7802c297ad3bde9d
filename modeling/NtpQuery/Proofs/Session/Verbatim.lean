import NtpQuery.Net.Script
import NtpQuery.Proofs.Session.Tape
import NtpQuery.Proofs.Text.Lines

/-!
# Variables as they came

In raw mode the commands that read variables write a line with the status
word, and below it the payload of the response. The payload is a run of
bytes, and it is written as the text that is read from it leniently. So
what is written are the bytes of the payload if they are those of a text,
and else they are others (`Run.dispatch_raw`). Whether a line end has to be
added is seen on the bytes alone.
-/

namespace NtpQuery

open Text

namespace Status

/-! ## Status words -/

theorem oneLine_countText (n : Nat) : OneLine (countText n) := by
  unfold countText
  split
  · decide
  · decide
  · rw [oneLine_append]
    exact ⟨oneLine_decimal _, by decide⟩

theorem oneLine_describeSystem (status : UInt16) :
    OneLine (describeSystem status) := by
  refine oneLine_intercalate (by decide) ?_
  simp only [List.forall_mem_cons, List.not_mem_nil, false_implies,
    implies_true, and_true]
  exact ⟨oneLine_getD (by decide) _, oneLine_getD (by decide) _,
    oneLine_countText _, oneLine_getD (by decide) _⟩

theorem oneLine_of_mem_flagNames {status : UInt16} {s : String}
    (hs : s ∈ flagNames status) : OneLine s := by
  obtain ⟨⟨set, name⟩, hmem, hname⟩ := List.mem_filterMap.mp hs
  have hall : name ∈ ["conf", "authenb", "auth", "reach", "bcast"] := by
    have := List.mem_map_of_mem (f := Prod.snd) hmem
    exact this
  have hsame : name = s := by
    dsimp only at hname
    split at hname
    · exact Option.some.inj hname
    · exact nomatch hname
  have hlines : ∀ s ∈ ["conf", "authenb", "auth", "reach", "bcast"],
      OneLine s := by decide
  exact hlines s (hsame ▸ hall)

theorem oneLine_describePeer (status : UInt16) :
    OneLine (describePeer status) := by
  refine oneLine_intercalate (by decide) ?_
  simp only [List.forall_mem_append, List.forall_mem_cons,
    List.not_mem_nil, false_implies, implies_true, and_true]
  refine ⟨⟨fun _ => oneLine_of_mem_flagNames, oneLine_getD (by decide) _,
    oneLine_countText _⟩, ?_⟩
  split
  · exact List.forall_mem_nil _
  · exact List.forall_mem_singleton.mpr (oneLine_getD (by decide) _)

theorem oneLine_describeClock (status : UInt16) :
    OneLine (describeClock status) := by
  unfold describeClock clockName
  rw [oneLine_append, oneLine_append]
  exact ⟨⟨oneLine_getD (by decide) _, by decide⟩,
    oneLine_getD (by decide) _⟩

end Status

namespace Variables

/-! ## Payloads -/

/-- **The line above the variables** is one line. -/
theorem oneLine_heading (opcode : Opcode) (r : Response) :
    OneLine (heading opcode r) := by
  have hstatus : OneLine (statusText opcode r) := by
    unfold statusText
    split_ifs
    · exact Status.oneLine_describeClock r.status
    · exact Status.oneLine_describeSystem r.status
    · exact Status.oneLine_describePeer r.status
  unfold heading
  simp only [oneLine_append, oneLine_decimal, oneLine_hexadecimal, hstatus,
    and_true]
  decide

/-- **What raw mode writes of a payload**: the bytes of the text that is
read from it, and a line end if the payload has none. -/
theorem utf8_body_raw (r : Response) :
    utf8 (body true r) = encode r.text
      ++ if r.data.getLast? = some 10 then [] else [10] := by
  have hline : r.text.getLast? = some '\n' ↔ r.data.getLast? = some 10 :=
    getLast?_decodeLossy_iff r.data
  unfold body utf8 endLine
  rw [if_pos rfl, String.toList_ofList]
  by_cases h : r.data.getLast? = some 10
  · rw [if_pos (hline.mpr h), if_pos h, List.append_nil]
  · rw [if_neg (fun hl => h (hline.mp hl)), if_neg h]
    exact List.flatMap_append

/-- **The commands that read variables**, each with its operation and
whether it sends names. -/
def readings : List (String × Opcode × Bool) :=
  [("readlist", .readVariables, false), ("rl", .readVariables, false),
    ("readvar", .readVariables, true), ("rv", .readVariables, true),
    ("pstatus", .readVariables, false), ("clockvar", .readClock, true),
    ("cv", .readClock, true)]

/-- The names that such a command sends. -/
def sentNames (named : Bool) (i : Invocation) : Bytes :=
  if named then utf8 (wantedNames i) else []

/-- They ask about the association that they are given, and show the
answer. -/
theorem action_of_mem_readings {c : Command Handler} {opcode : Opcode}
    {named : Bool} (hc : c ∈ Standard.tables.commands)
    (hreading : (c.keyword, opcode, named) ∈ readings) {i : Invocation}
    {assid : UInt16} (hassid : associationOf i = .ok assid) :
    c.action i = readAndShow opcode assid (sentNames named i) := by
  have hall : readAll i = readAndShow .readVariables assid [] := by
    unfold readAll
    rw [hassid]
  have hnamed : ∀ opcode, readNamed opcode i
      = readAndShow opcode assid (utf8 (wantedNames i)) := by
    intro opcode
    unfold readNamed
    rw [hassid]
  have hcommands : ∀ c ∈ Standard.tables.commands, ∀ opcode named,
      (c.keyword, opcode, named) ∈ readings →
      c.action i = readAndShow opcode assid (sentNames named i) := by
    unfold Standard.tables Tables.commands Standard.core Standard.extended
    simp [readings, sentNames, hall, hnamed]
  exact hcommands c hc opcode named hreading

end Variables

namespace Run

open Variables

variable {τ : Type} [Transport τ]

/-- **Showing an answer**: the line above it, and what the mode makes of
it. -/
theorem perform_readAndShow (t : Tables Unit) {opcode : Opcode}
    {assid : UInt16} {data : Bytes} {response : Response}
    {r next : Run τ Tape}
    (h : r.query opcode assid data = (.ok response, next)) :
    r.perform t (readAndShow opcode assid data)
      = (.ok (), ((next.told [heading opcode response]).write
        (utf8 (body next.client.state.raw response))).2) := by
  unfold readAndShow
  rw [perform_bind, perform_query, h]
  dsimp only
  rw [perform_bind, perform_printLine]
  rfl

/-- **What raw mode writes**: the line above the variables, the bytes of
the text that is read from the payload, and a line end if the payload has
none. These are the bytes of the payload exactly if it is a text. -/
theorem dispatch_raw {r between next : Run τ Tape} {keyword : String}
    {raws : List String} {c : Command Handler} {opcode : Opcode}
    {named : Bool} {i : Invocation} {assid : UInt16} {response : Response}
    (hresolve : Standard.tables.resolve keyword = some c)
    (hreading : (c.keyword, opcode, named) ∈ readings)
    (hraw : r.client.state.raw = true)
    (hread : Coercion.invocation keyword c.slots raws r = (.ok i, between))
    (hassid : associationOf i = .ok assid)
    (hanswer : between.query opcode assid (sentNames named i)
      = (.ok response, next)) :
    (∃ r', dispatch Standard.tables keyword raws r = (.ok (), r')
        ∧ r'.workspace.output = r.workspace.output
          ++ utf8 (heading opcode response ++ "\n")
          ++ (encode response.text
            ++ if response.data.getLast? = some 10 then [] else [10]))
      ∧ OneLine (heading opcode response)
      ∧ (encode response.text = response.data
        ↔ ∃ text, response.data = encode text) := by
  refine ⟨?_, oneLine_heading opcode response,
    encode_decodeLossy_iff response.data⟩
  obtain ⟨houtput, hchanges⟩ := reading_ok hread
  have hsame := (shown_query between opcode assid (sentNames named i)).1
  have hmode : next.client.state.raw = true := by
    rw [hanswer, (Scope.shown_of_queries hchanges).1, hraw] at hsame
    exact hsame
  have hkept : next.workspace.output = r.workspace.output := by
    rw [← houtput, ← output_query between opcode assid (sentNames named i),
      hanswer]
  have haction := action_of_mem_readings
    (Tables.mem_commands_of_resolve hresolve) hreading hassid
  rw [dispatch_of_reading hresolve hread, haction,
    perform_readAndShow _ hanswer, hmode]
  refine ⟨_, rfl, ?_⟩
  rw [← utf8_body_raw, ← hkept]
  unfold told
  rw [List.flatMap_singleton]
  rfl

/-- A peer's offset, asked for by name: its payload is a text and is
written as it is, with a line end behind it. -/
theorem dispatch_raw_offset :
    let reply := Script.Event.fragment { status := 0x9614 } 0 false
      (utf8 "offset=1µ")
    let w : World := ⟨0, fun _ => [.v4 #v[192, 0, 2, 1]], .unlimited,
      fun _ => true⟩
    let r : Run (Exchange Script) Tape :=
      ⟨w, .new { raw := true } ⟨⟨[⟨none, some 7, none, [reply], 0⟩]⟩, []⟩,
        ⟨[], Bytes.zeros 480⟩, .initial, []⟩
    let i : Invocation := ⟨"rv", [.unsigned 7, .text "offset"]⟩
    let response : Response := ⟨0x9614, 7, utf8 "offset=1µ"⟩
    ∃ c, Standard.tables.resolve "rv" = some c
      ∧ (c.keyword, .readVariables, true) ∈ readings
      ∧ r.client.state.raw = true
      ∧ Coercion.invocation "rv" c.slots ["7", "offset"] r = (.ok i, r)
      ∧ associationOf i = .ok 7
      ∧ (r.query .readVariables 7 (sentNames true i)).1 = .ok response
      ∧ ∃ r', dispatch Standard.tables "rv" ["7", "offset"] r = (.ok (), r')
        ∧ r'.workspace.output
          = utf8 (heading .readVariables response ++ "\n")
            ++ (response.data ++ [10]) := by
  intro reply w r i response
  obtain ⟨c, hresolve, hslots, hreading⟩ : ∃ c,
      Standard.tables.resolve "rv" = some c
        ∧ c.slots = Standard.variableSlots
        ∧ (c.keyword, .readVariables, true) ∈ readings :=
    ⟨_, rfl, rfl, by decide⟩
  have hread : Coercion.invocation "rv" c.slots ["7", "offset"] r
      = (.ok i, r) := by
    rw [hslots]
    exact Prod.ext (by decide +kernel)
      (Coercion.invocation_of_plain (by decide))
  have hanswer : (r.query .readVariables 7 (sentNames true i)).1
      = .ok response := by decide +kernel
  obtain ⟨⟨r', hresult, houtput⟩, -, htext⟩ := dispatch_raw hresolve
    hreading rfl hread rfl (Prod.ext hanswer rfl)
  refine ⟨c, hresolve, hreading, rfl, hread, rfl, hanswer, r', hresult, ?_⟩
  have hend : response.data.getLast? ≠ some 10 := by decide +kernel
  have hblank : r.workspace.output = [] := rfl
  rw [houtput, htext.mpr ⟨_, rfl⟩, if_neg hend, hblank, List.nil_append]

/-- A payload of a single byte that starts no character: three other bytes
are written for it. -/
theorem dispatch_raw_broken :
    let reply := Script.Event.fragment {} 0 false [0xFF]
    let w : World := ⟨0, fun _ => [.v4 #v[192, 0, 2, 1]], .unlimited,
      fun _ => true⟩
    let r : Run (Exchange Script) Tape :=
      ⟨w, .new { raw := true } ⟨⟨[⟨none, none, none, [reply], 0⟩]⟩, []⟩,
        ⟨[], Bytes.zeros 480⟩, .initial, []⟩
    let response : Response := ⟨0, 0, [0xFF]⟩
    let line := utf8 (heading .readVariables response ++ "\n")
    let answer := dispatch Standard.tables "readlist" [] r
    r.client.state.raw = true
      ∧ (r.query .readVariables 0 []).1 = .ok response
      ∧ answer.1 = .ok ()
      ∧ answer.2.workspace.output = line ++ [0xEF, 0xBF, 0xBD, 10]
      ∧ answer.2.workspace.output ≠ line ++ (response.data ++ [10]) := by
  decide +kernel

end Run

end NtpQuery
