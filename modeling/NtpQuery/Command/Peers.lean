import NtpQuery.Command.Associations
import NtpQuery.Net.Literal
import NtpQuery.Text.Binary64
import NtpQuery.Text.Column
import NtpQuery.Timestamp
import NtpQuery.Variable

/-!
# Tables of peers

The commands that show a row for each peer of the server, from the
variables of its association. A peer without a source address is left
out. Whatever a variable holds, it makes a row: what cannot be read as a
number is shown as it is, and what is missing is shown as `-`.
-/

namespace NtpQuery

open Text

/-- **One row of the table of peers.** -/
structure PeerLine where
  /-- The mark for the outcome of peer selection. -/
  tally : Char
  /-- The source address, as sent. -/
  remote : String
  /-- The host name, if the server knows it. -/
  hostName : Option String
  /-- The source address, if it can be read. -/
  addr : Option IpAddr
  /-- The reference of the peer. -/
  refid : String
  /-- The stratum. -/
  stratum : String
  /-- The kind of association. -/
  kind : Char
  /-- How long ago the peer was heard. -/
  lastHeard : String
  /-- The interval between polls. -/
  poll : String
  /-- The reachability register. -/
  reach : String
  /-- The round trip delay. -/
  delay : String
  /-- The clock offset. -/
  offset : String
  /-- The dispersion of the offsets. -/
  jitter : String
  deriving DecidableEq

namespace PeerLine

/-- The address in a text, which may have a port. -/
def address? (text : String) : Option IpAddr :=
  (IpAddr.ofText? text).orElse fun _ =>
    (SocketAddr.ofText? text).map (·.ip)

/-- The kind of association: local reference clock, symmetric, unicast
or broadcast. -/
def kindOf (remote : String) (hmode : Option String) : Char :=
  if "127.127.".toList.isPrefixOf remote.toList then 'l'
  else if hmode = some "1" ∨ hmode = some "2" then 's'
  else if hmode = some "3" then 'u'
  else if hmode = some "5" then 'b'
  else '-'

/-- How long before `now` a timestamp was. Zero, and a time to come, do
not count. -/
def heardText (now : Nat) (rec : Option String) : String :=
  match (rec.bind fun r => ntpSeconds? r.toList).filter
      (fun t => t ≠ 0 ∧ t ≤ now) with
  | some t => interval (now - t)
  | none => "-"

/-- The lesser of two exponents of two that can be read. -/
def pollExponent (hpoll ppoll : Option String) : Option Nat :=
  ([hpoll, ppoll].filterMap fun v =>
    v.bind fun t => readUnsigned? 10 UInt32.size t.toList).min?

/-- The interval between polls. -/
def pollText (hpoll ppoll : Option String) : String :=
  match (pollExponent hpoll ppoll).filter (· < 64) with
  | some e => interval (Nat.pow 2 e)
  | none => "-"

/-- A number with three places, or the text itself if it is none. -/
def millisText : Option String → String
  | none => "-"
  | some text =>
    match Binary64.read? text.toList with
    | some x => x.fixed 3
    | none => text

/-- **The row of a peer** with the given variables and status word, if it
has a source address. -/
def ofVariables (vars : List Variable) (status : UInt16) (now : Nat) :
    Option PeerLine :=
  let value := Variable.lookup vars
  let text := fun name => (value name).getD "-"
  (value "srcadr").map fun remote =>
    { tally := Status.tally status
      remote := remote
      hostName := value "srchost"
      addr := address? remote
      refid := text "refid"
      stratum := text "stratum"
      kind := kindOf remote (value "hmode")
      lastHeard := heardText now (value "rec")
      poll := pollText (value "hpoll") (value "ppoll")
      reach := text "reach"
      delay := millisText (value "delay")
      offset := millisText (value "offset")
      jitter := millisText (value "jitter") }

/-- The text at the left of a column of fifteen characters, cut to
it. -/
def column15 (s : String) : String :=
  padRight 15 (cut 15 s)

/-- **The line of a row.** -/
def toLine (r : PeerLine) (showHostnames : Bool) : String :=
  let name := if showHostnames then r.hostName.getD r.remote else r.remote
  String.singleton r.tally ++ column15 name ++ " " ++ column15 r.refid
    ++ " " ++ padLeft 2 r.stratum ++ " " ++ String.singleton r.kind
    ++ " " ++ padLeft 4 r.lastHeard ++ " " ++ padLeft 4 r.poll
    ++ " " ++ padLeft 5 r.reach ++ " " ++ padLeft 7 r.delay
    ++ " " ++ padLeft 8 r.offset ++ " " ++ padLeft 7 r.jitter

/-- Whether a row is wanted when only addresses of a family are. -/
def belongsTo (r : PeerLine) (family : AddressFamily) : Bool :=
  family == .any || r.addr.any family.includes

end PeerLine

namespace Peers

open Routine

/-- The variables that a row is made of. -/
def variableNames : String :=
  "srcadr,srchost,refid,stratum,hmode,rec,hpoll,ppoll,reach,delay,offset,jitter"

/-- The two lines above the rows. -/
def heading : List String :=
  ["     remote           refid      st t when poll reach   delay   "
      ++ "offset  jitter",
    String.ofList (List.replicate 79 '=')]

/-- Asks for the variables of an association and shows its row. -/
def showRow (family : AddressFamily) (now : Nat) (a : Association) :
    Routine Unit := do
  let r ← query .readVariables a.assid (utf8 variableNames)
  match PeerLine.ofVariables (Variable.parse r.text) a.status now with
  | none => pure ()
  | some row =>
    if row.belongsTo family then
      printLine (row.toLine (← state).showHostnames)

/-- **Shows the peers**: reads the list of associations, and shows a row
for each that is wanted. -/
def showTable (all : Bool) : Handler := fun i => do
  let family := ((i.ipVersion? 0).map (·.family)).getD .any
  refresh
  let wanted := (← state).associations.filter fun a =>
    all || a.isNotable
  if wanted.isEmpty then printLine Associations.noneReturned
  else
    heading.forM printLine
    let now ← ask .clock
    wanted.forM (showRow family (currentSeconds now))

end Peers

end NtpQuery
