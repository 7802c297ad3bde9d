import NtpQuery.Command.Routine
import NtpQuery.Text.Column
import NtpQuery.Text.White

/-!
# The core commands

Help, and the commands that show or change a setting. All of them work
on what the client remembers; none of them asks the server anything.
-/

namespace NtpQuery.Settings

open Text Routine

/-- The keywords in lines of four columns. -/
def keywordLines : List String → List String
  | a :: b :: c :: d :: rest =>
    line [a, b, c, d] :: keywordLines rest
  | [] => []
  | few => [line few]
where
  /-- A line of columns, without the blanks at its end. -/
  line (row : List String) : String :=
    String.ofList
      (trimEnd (row.flatMap fun k => (padRight 16 k).toList))

/-- **Help**: all keywords, or the use of one command. -/
def help : Handler := fun i => do
  let tables ← ask .catalogue
  match i.text? 0 with
  | none =>
    printLine "ntpq commands:"
    (keywordLines (tables.commands.map (·.keyword))).forM printLine
  | some topic =>
    match tables.resolve topic with
    | some c =>
      printLine ("function: " ++ c.comment)
      printLine ("usage: " ++ c.keyword ++ " " ++ c.usage)
    | none => printLine ("Command `" ++ topic ++ "' is unknown")

/-- Sets or shows the wait for the first fragment of a response. -/
def timeout : Handler := fun i =>
  match i.unsigned? 0 with
  | some ms => modify fun s => { s with timeout := ms }
  | none => do
    let s ← state
    printLine ("primary timeout " ++ decimal s.timeout.toNat ++ " ms")

/-- Sets or shows the authentication delay. -/
def delay : Handler := fun i =>
  match i.signed? 0 with
  | some ms => modify fun s => { s with delay := ms }
  | none => do
    let s ← state
    printLine ("delay " ++ signedDecimal s.delay.toInt ++ " ms")

/-- Chooses a server and says so. -/
def chooseHost (name : String) (family : AddressFamily) : Routine Unit := do
  selectHost name family
  printLine ("current host set to " ++ name)

/-- Shows the current server. -/
def showHost : Routine Unit := do
  match (← state).host with
  | some host => printLine ("current host is " ++ host.name)
  | none => printLine "no current host"

/-- **Chooses or shows the server.** A flag for the IP version may stand
before its name. -/
def host : Handler := fun i =>
  match i.textTail 0 with
  | [] => showHost
  | first :: rest =>
    match IpVersion.ofFlag? first, rest with
    | none, _ => chooseHost first .any
    | some _, [] => throw (.argument (.missingHost first))
    | some version, name :: _ => chooseHost name version.family

/-- The meaning of `yes` and `no`. -/
def switchValue (value : String) : Except ClientError Bool :=
  if value = "yes" then .ok true
  else if value = "no" then .ok false
  else .error (.argument (.notYesOrNo value))

/-- Sets a switch if a value is given. -/
def setSwitch (i : Invocation)
    (set : Bool → Client.State → Client.State) : Routine Unit :=
  match i.text? 0 with
  | none => pure ()
  | some value =>
    match switchValue value with
    | .error e => throw e
    | .ok on => modify (set on)

/-- Sets or shows whether tables show host names. -/
def hostnames : Handler := fun i => do
  setSwitch i fun on s => { s with showHostnames := on }
  if (← state).showHostnames then printLine "hostnames being shown"
  else printLine "hostnames not being shown"

/-- Turns to showing variables as they come. -/
def raw : Handler := fun _ => do
  modify fun s => { s with raw := true }
  printLine "Output set to raw"

/-- Turns to showing variables in lines. -/
def cooked : Handler := fun _ => do
  modify fun s => { s with raw := false }
  printLine "Output set to cooked"

/-- Sets or shows whether requests should be authenticated. -/
def authenticate : Handler := fun i => do
  setSwitch i fun on s => { s with authenticate := on }
  if (← state).authenticate then
    printLine "authentication requested, requests are sent unsigned"
  else printLine "unauthenticated requests being sent"

/-- Sets a version if one is given. -/
def setVersion (requested : Option UInt64) : Routine Unit :=
  match requested with
  | none => pure ()
  | some n =>
    if oldestVersion ≤ n.toNat ∧ n.toNat ≤ newestVersion then
      modify fun s => { s with version := UInt8.ofNat n.toNat }
    else throw (.argument .unknownVersion)

/-- Sets and shows the version that requests claim. -/
def ntpVersion : Handler := fun i => do
  setVersion (i.unsigned? 0)
  printLine ("NTP version being claimed is "
    ++ decimal (← state).version.toNat)

/-- Sets a key if one is given; zero stands for none. -/
def setKey (requested : Option UInt64) : Routine Unit :=
  match requested with
  | none => pure ()
  | some n =>
    if n.toNat < UInt32.size then
      modify fun s =>
        { s with key := if n = 0 then none else some (UInt32.ofNat n.toNat) }
    else throw (.argument (.keyTooLarge n.toNat))

/-- Sets and shows the key to authenticate with. -/
def keyId : Handler := fun i => do
  setKey (i.unsigned? 0)
  match (← state).key with
  | some key => printLine ("keyid is " ++ decimal key.toNat)
  | none => printLine "keyid is unspecified"

/-- Shows the version of the program. -/
def version : Handler := fun _ =>
  printLine "ntpq-embed 0.1.0"

end NtpQuery.Settings
