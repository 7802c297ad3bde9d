import NtpQuery.Session.Call
import NtpQuery.Text.Utf8

/-!
# Command lines and replies

A command line is one of three things: `open` and `close` open and
close the session, and anything else is executed. The reply to it is an
exit status and a text to be shown, which ends with its line.
-/

namespace NtpQuery

/-- **The sizes** that are asked for. -/
structure Sizes where
  /-- The capacity of a capture buffer, in bytes. -/
  capacity : Nat := 4096
  /-- The size of the buffer for the output of one command, in bytes. -/
  outputSize : Nat := 2048
  deriving DecidableEq

namespace Terminal

open Text SessionProgram

/-- **The reply** to a command line. -/
structure Reply where
  /-- The exit status; zero for success. -/
  status : Nat
  /-- The text to be shown. -/
  output : String
  deriving DecidableEq, Repr

/-- A text that ends with its line, unless it is empty. -/
def endingLine (s : String) : String :=
  if s.isEmpty ∨ s.toList.getLast? = some '\n' then s else s ++ "\n"

/-- The reply to a command line that succeeded. -/
def success (output : String) : Reply := ⟨0, endingLine output⟩

/-- The reply to a command line that failed. -/
def failure (output : String) : Reply := ⟨1, endingLine output⟩

/-- The text in a buffer: what comes before its first zero. -/
def shownText (out : Bytes) : String :=
  String.ofList (decodeLossy (out.takeWhile (· != 0)))

/-- The reply after an operation with this result. A failure is worded
by the session's record of it. -/
def report (result : Except Failure Unit) (output : String) :
    SessionProgram Reply := do
  match result with
  | .ok () => return success output
  | .error _ => return failure (← ask .lastError).text

/-- **Running a command line.** -/
def run (sizes : Sizes) (argv : List String) : SessionProgram Reply := do
  match argv with
  | [] => return failure "error: no host and commands"
  | word :: _ =>
    if word = "open" then
      report (← ask (.create sizes.capacity)) "ntpq: open"
    else if word = "close" then
      ask .destroy
      return success "ntpq: closed"
    else
      let (result, out) ←
        ask (.execute argv (Bytes.zeros sizes.outputSize))
      report result (shownText out)

end Terminal

end NtpQuery
