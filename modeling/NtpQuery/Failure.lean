import NtpQuery.Client.Error

/-!
# Failures of session operations

Why an operation on a session fails, and how the most recent failure is
remembered. A caller that only sees success or failure can ask for the
`ErrorRecord` afterwards: a number and a text of at most 128 bytes.
-/

namespace NtpQuery

open Text

/-- Why an association index such as `&3` selects nothing. -/
inductive IndexFault where
  /-- It is not a number. -/
  | unreadable
  /-- The server has no associations. -/
  | noAssociations
  /-- No association has this index. -/
  | outOfRange
  deriving DecidableEq, Repr

/-- The text of an index fault. -/
def IndexFault.message : IndexFault → String
  | unreadable => "association index invalid/undecodable"
  | noAssociations => "no associations found"
  | outOfRange => "association index out of range"

/-- **Why an operation on a session failed.** -/
inductive Failure where
  /-- The session is open already. -/
  | alreadyOpen
  /-- The session is not open. -/
  | notOpen
  /-- There is no memory for the capture buffer. -/
  | outOfMemory (requested : Nat)
  /-- A command line is empty. -/
  | missingArguments
  /-- A keyword belongs to no command. -/
  | unknownCommand (keyword : String)
  /-- A command lacks an argument. -/
  | tooFewArguments (keyword : String)
  /-- An argument is not an address. -/
  | invalidAddress (value : String)
  /-- An argument selects no association. -/
  | unknownAssociation (index : String) (fault : IndexFault)
  /-- An argument is not an unsigned number. -/
  | invalidUnsigned (value : String)
  /-- An argument is not a signed number. -/
  | invalidSigned (value : String)
  /-- An argument is not an IP version. -/
  | invalidIpVersion (value : String)
  /-- The session is running a command. -/
  | busy
  /-- The command failed. -/
  | commandFailed (keyword : String) (cause : ClientError)
  deriving DecidableEq, Repr

namespace Failure

/-- The text of a failure. -/
def message : Failure → String
  | alreadyOpen => "session already open"
  | notOpen => "session not open"
  | outOfMemory requested =>
    "unable to allocate " ++ decimal requested
      ++ " bytes for the capture buffer"
  | missingArguments => "missing arguments"
  | unknownCommand keyword => "unknown command `" ++ keyword ++ "'"
  | tooFewArguments keyword =>
    "too few arguments for `" ++ keyword ++ "'"
  | invalidAddress value => "invalid address `" ++ value ++ "'"
  | unknownAssociation index fault =>
    fault.message ++ ": `" ++ index ++ "'"
  | invalidUnsigned value => "invalid unsigned value `" ++ value ++ "'"
  | invalidSigned value => "invalid signed value `" ++ value ++ "'"
  | invalidIpVersion value =>
    "invalid IP version `" ++ value ++ "', expected -4 or -6"
  | busy => "session busy running another command"
  | commandFailed keyword cause => keyword ++ ": " ++ cause.message

/-- **The number of a failure**: an error number of the operating system
where one applies, and otherwise -1. -/
def code : Failure → Int
  | alreadyOpen => 17
  | outOfMemory _ => 12
  | commandFailed _ cause => cause.errno?.getD (-1)
  | _ => -1

/-- The failure that a result reports, if it reports one. -/
def of? {α : Type} : Except Failure α → Option Failure
  | .ok _ => none
  | .error f => some f

theorem of?_eq_some_iff {α : Type} {result : Except Failure α}
    {f : Failure} : of? result = some f ↔ result = .error f := by
  cases result <;> simp [of?]

end Failure

/-- **The memory of a failure**: its number and its text. -/
structure ErrorRecord where
  /-- The number. -/
  code : Int
  /-- The text. -/
  text : String
  deriving DecidableEq, Repr

namespace ErrorRecord

/-- The record before anything has failed. -/
def initial : ErrorRecord := ⟨0, ""⟩

/-- The greatest length of a recorded text, in bytes. -/
def maxBytes : Nat := 128

/-- The longest front part of a text that has at most `limit` bytes and
splits no character. -/
def cutBytes : (limit : Nat) → List Char → List Char
  | _, [] => []
  | limit, c :: rest =>
    if c.utf8Size ≤ limit then c :: cutBytes (limit - c.utf8Size) rest
    else []

/-- The whole text for a failure. A number of the operating system is
followed by its description. -/
def fullText (f : Failure) : String :=
  "ntpq: " ++ f.message
    ++ if 0 < f.code then
        ": " ++ signedDecimal f.code ++ ": " ++ errnoText f.code
      else ""

/-- **The record of a failure.** -/
def ofFailure (f : Failure) : ErrorRecord :=
  ⟨f.code, String.ofList (cutBytes maxBytes (fullText f).toList)⟩

end ErrorRecord

end NtpQuery
