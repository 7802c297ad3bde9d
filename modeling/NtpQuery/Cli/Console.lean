import NtpQuery.Terminal
import NtpQuery.Text.White

/-!
# Running command lines

Command lines come from the arguments of the program, or line by line
from its standard input. Either way the reply to each goes to standard
output if it succeeded and to standard error if it failed. Lines of the
input may also be blank, or end the program.

The two ways differ in the exit status: a run of commands from the
arguments fails if any of them fails, and a run from the input ends as
its last command does.

Log messages are left out. Unless the environment turns them off or sends
them to a file, the warnings of the session go to standard error as well,
each with its time: that a command has failed, that its output was cut, or
that a session that runs a command was not closed.
-/

namespace NtpQuery.Cli

open Text

/-- **What a program leaves behind**: its output and its exit status. -/
structure Console where
  /-- What is written to standard output. -/
  stdout : String := ""
  /-- What is written to standard error, but for log messages. -/
  stderr : String := ""
  /-- The exit status. -/
  status : Nat := 0
  deriving DecidableEq, Repr

namespace Console

/-- Shows a reply. -/
def display (c : Console) (r : Terminal.Reply) : Console :=
  if r.status = 0 then { c with stdout := c.stdout ++ r.output }
  else { c with stderr := c.stderr ++ r.output }

/-- A text after a mark. The further lines of the text stand below its
first. -/
def hang (mark text : String) : String :=
  let margin := "".pushn ' ' mark.length
  mark ++ ("\n" ++ margin).intercalate (text.splitOn "\n")

/-- Ends with an error and what lies behind it. Several causes are
numbered. -/
def abort (c : Console) (error : String) (causes : List String) : Console :=
  let lines := match causes with
    | [cause] => [hang "    " cause]
    | _ => causes.mapIdx fun n cause =>
      hang ("    " ++ decimal n ++ ": ") cause
  { c with
    stderr := c.stderr ++ "Error: " ++ error ++ "\n\nCaused by:\n"
      ++ "\n".intercalate lines ++ "\n"
    status := 1 }

end Console

/-- Runs a command line, of which white space separates the words. -/
def runWords (sizes : Sizes) (line : List Char) :
    SessionProgram Terminal.Reply :=
  Terminal.run sizes ((words line).map String.ofList)

/-- **Running commands from the arguments**, all of them. The status of
a failure stays. -/
def followArguments (sizes : Sizes) :
    List String → Console → SessionProgram Console
  | [], c => return c
  | command :: rest, c => do
    let r ← runWords sizes command.toList
    let c := c.display r
    followArguments sizes rest
      { c with status := if r.status = 0 then c.status else r.status }

/-- A line that has been ended, without the carriage return before its
end. -/
def withoutReturn (line : Bytes) : Bytes :=
  if line.getLast? = some 13 then line.dropLast else line

/-- **The lines of the input.** The last need not be ended. -/
def inputLines (s : Bytes) : List Bytes :=
  match _h : s.dropWhile (· != 10) with
  | [] => if s.isEmpty then [] else [s]
  | _ :: rest => withoutReturn (s.takeWhile (· != 10)) :: inputLines rest
termination_by s.length
decreasing_by
  have := (List.dropWhile_sublist (l := s) (· != 10)).length_le
  rw [_h] at this
  simp only [List.length_cons] at this
  omega

/-- **What a line of the input asks for.** -/
inductive Request where
  /-- Nothing. -/
  | blank
  /-- To end the program. -/
  | quit
  /-- To run a command line. -/
  | command (line : List Char)
  /-- It cannot be read. -/
  | unreadable
  deriving DecidableEq

/-- What a line of the input asks for. -/
def Request.ofLine (line : Bytes) : Request :=
  match decode? line with
  | none => unreadable
  | some text =>
    let text := trim text
    if text = [] then blank
    else if text = "quit".toList ∨ text = "exit".toList then quit
    else command text

/-- **Running commands from the input**, up to a line that ends the
program. The answer says whether the session is to be closed: it is not
when a line cannot be read. -/
def followInput (sizes : Sizes) :
    List Request → Console → SessionProgram (Bool × Console)
  | [], c => return (true, c)
  | .blank :: rest, c => followInput sizes rest c
  | .quit :: _, c => return (true, c)
  | .unreadable :: _, c =>
    return (false, c.abort "Failed to read command"
      ["stream did not contain valid UTF-8"])
  | .command line :: rest, c => do
    let r ← runWords sizes line
    followInput sizes rest { c.display r with status := r.status }

end NtpQuery.Cli
