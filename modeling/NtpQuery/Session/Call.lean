import NtpQuery.Bytes
import NtpQuery.Client.State
import NtpQuery.Failure
import NtpQuery.Program

/-!
# The operations of a session

What can be asked of a session, as data: each `SessionCall` is one
operation, and `SessionCall.Answer` is what it returns. Whoever uses a
session is a program over these calls.

The command that a session is running may make such calls as well, on
that same session. They change nothing: `SessionCall.answerBusy` says
what each returns, and how it counts as a failure.
-/

namespace NtpQuery

/-- **An operation of a session.** -/
inductive SessionCall where
  /-- Asks whether the session is open. -/
  | isReady
  /-- Asks for the most recent failure. -/
  | lastError
  /-- Opens the session with a capture buffer of so many bytes. -/
  | create (capacity : Nat)
  /-- Closes the session. -/
  | destroy
  /-- Takes on other defaults and resets the client to them. -/
  | configure (defaults : Defaults)
  /-- Runs a command line; its output goes into a buffer that the caller
  lends. -/
  | execute (argv : List String) (out : Bytes)
  deriving DecidableEq

namespace SessionCall

/-- What an operation returns. -/
def Answer : SessionCall → Type
  | isReady => Bool
  | lastError => ErrorRecord
  | create _ => Except Failure Unit
  | destroy => Unit
  | configure _ => Except Failure Unit
  | execute _ _ => Except Failure Unit × Bytes

/-- An operation that was carried out, with what it returned. -/
abbrev Record := (c : SessionCall) × c.Answer

/-- **The failure of an operation** of a session that is running a
command. A session that runs a command is open, and a command line is
looked at before the session is found to be busy. -/
def busyFailure : SessionCall → Option Failure
  | isReady | lastError => none
  | create _ => some .alreadyOpen
  | destroy | configure _ => some .busy
  | execute [] _ => some .missingArguments
  | execute (_ :: _) _ => some .busy

/-- **What an operation returns** on a session that is running a command
and whose most recent failure is given. -/
def answerBusy (last : ErrorRecord) : (c : SessionCall) → c.Answer
  | isReady => true
  | lastError => last
  | create _ => .error .alreadyOpen
  | destroy => ()
  | configure _ => .error .busy
  | execute argv out =>
    (.error (if argv.isEmpty then .missingArguments else .busy),
      Bytes.zeros out.length)

end SessionCall

/-- A program that uses a session. -/
abbrev SessionProgram := Program SessionCall.Answer

namespace SessionProgram

/-- A single operation as a program. -/
def ask (c : SessionCall) : SessionProgram c.Answer :=
  Program.perform c

end SessionProgram

end NtpQuery
