import NtpQuery.Command.Routine
import NtpQuery.Status
import NtpQuery.Variable

/-!
# Reading variables

The commands that read system, peer or clock variables and show them
under a line with the status word. In raw mode the variables are shown
as the server sent them, and otherwise in lines of their own making.
-/

namespace NtpQuery.Variables

open Text Routine

/-- The width of the lines that variables are shown in. -/
def lineWidth : Nat := 72

/-- The association that a command is about: the one that is given, or
else the system. -/
def associationOf (i : Invocation) : Except ClientError UInt16 :=
  match i.unsigned? 0 with
  | none => .ok 0
  | some n =>
    if n.toNat < 65536 then .ok (UInt16.ofNat n.toNat)
    else .error (.argument (.associationTooLarge n.toNat))

/-- The names of the variables that are asked for. -/
def wantedNames (i : Invocation) : String :=
  ",".intercalate (i.textTail 1)

/-- The status word of a response in words. -/
def statusText (opcode : Opcode) (r : Response) : String :=
  if opcode = .readClock then Status.describeClock r.status
  else if r.assid = 0 then Status.describeSystem r.status
  else Status.describePeer r.status

/-- The line above the variables. -/
def heading (opcode : Opcode) (r : Response) : String :=
  "associd=" ++ decimal r.assid.toNat
    ++ " status=" ++ hexadecimal 4 r.status.toNat
    ++ " " ++ statusText opcode r ++ ","

/-- Text with a line end, unless it has one. -/
def endLine (s : List Char) : List Char :=
  if s.getLast? = some '\n' then s else s ++ ['\n']

/-- **The variables of a response**, as a mode shows them. -/
def body (raw : Bool) (r : Response) : String :=
  if raw then String.ofList (endLine r.text)
  else Variable.format lineWidth (Variable.parse r.text)

/-- Asks for variables and shows them. -/
def readAndShow (opcode : Opcode) (assid : UInt16) (data : Bytes) :
    Routine Unit := do
  let r ← query opcode assid data
  printLine (heading opcode r)
  print (body (← state).raw r)

/-- Shows all variables. -/
def readAll : Handler := fun i =>
  match associationOf i with
  | .error e => throw e
  | .ok assid => readAndShow .readVariables assid []

/-- Shows the variables that are named, or all. -/
def readNamed (opcode : Opcode) : Handler := fun i =>
  match associationOf i with
  | .error e => throw e
  | .ok assid => readAndShow opcode assid (utf8 (wantedNames i))

end NtpQuery.Variables
