import NtpQuery.Client.Query
import NtpQuery.Command.Table
import NtpQuery.Session.Call

/-!
# What commands do

What a command does is a *routine*: a program that writes output, reads
and changes what the client remembers, asks the server, and may turn to
the session that is running it. `CommandCall` lists all that it can do,
so a statement about every routine is a statement about every command
that there could be.

A routine ends well or with a `ClientError`; what it has written until
then stands.
-/

namespace NtpQuery

/-- **One thing that a command can do.** -/
inductive CommandCall where
  /-- Writes bytes; the answer is how many were taken. -/
  | write (bytes : Bytes)
  /-- Reads what the client remembers. -/
  | state
  /-- Replaces what the client remembers. -/
  | setState (s : Client.State)
  /-- Reads what a reset returns to. -/
  | defaults
  /-- Takes on other defaults and resets to them. -/
  | adopt (d : Defaults)
  /-- Resets the client. -/
  | reset
  /-- Chooses the server. -/
  | selectHost (name : String) (family : AddressFamily)
  /-- Asks the server. -/
  | query (opcode : Opcode) (assid : UInt16) (data : Bytes)
  /-- Reads the list of associations anew. -/
  | refresh
  /-- Reads the time of day, in seconds since the Unix epoch. -/
  | clock
  /-- Reads the names and the help of the commands. -/
  | catalogue
  /-- Turns to the session that is running the command. -/
  | session (c : SessionCall)

/-- What each call returns. -/
def CommandCall.Answer : CommandCall → Type
  | write _ => Nat
  | state => Client.State
  | setState _ => Unit
  | defaults => Defaults
  | adopt _ => Unit
  | reset => Unit
  | selectHost _ _ => Except ClientError Unit
  | query _ _ _ => Except ClientError Response
  | refresh => Except ClientError Unit
  | clock => Int
  | catalogue => Tables Unit
  | session c => c.Answer

/-- **What a command does**, which may fail. -/
abbrev Routine := ExceptT ClientError (Program CommandCall.Answer)

/-- What a command does with its arguments. -/
abbrev Handler := Invocation → Routine Unit

namespace Routine

/-- A single call. -/
def ask (c : CommandCall) : Routine c.Answer :=
  ExceptT.lift (Program.perform c)

/-- Writes a text. -/
def print (s : String) : Routine Unit := do
  let _ ← ask (.write (Text.utf8 s))

/-- Writes a line. -/
def printLine (s : String) : Routine Unit :=
  print (s ++ "\n")

/-- Reads what the client remembers. -/
def state : Routine Client.State :=
  ask .state

/-- Changes what the client remembers. -/
def modify (f : Client.State → Client.State) : Routine Unit := do
  ask (.setState (f (← state)))

/-- Chooses the server. -/
def selectHost (name : String) (family : AddressFamily) : Routine Unit :=
  ExceptT.mk (Program.perform (CommandCall.selectHost name family))

/-- Asks the server. -/
def query (opcode : Opcode) (assid : UInt16) (data : Bytes) :
    Routine Response :=
  ExceptT.mk (Program.perform (CommandCall.query opcode assid data))

/-- Reads the list of associations anew. -/
def refresh : Routine Unit :=
  ExceptT.mk (Program.perform CommandCall.refresh)

/-- A program that uses the session that is running the command. -/
def onSession {α : Type} (p : SessionProgram α) : Routine α :=
  ExceptT.lift (p.substitute fun c => Program.perform (.session c))

end Routine

end NtpQuery
