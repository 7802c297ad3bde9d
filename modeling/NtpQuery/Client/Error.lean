import NtpQuery.Net.Error
import NtpQuery.Wire.Error

/-!
# Failures of a client

Why a request to a server, or a command that makes one, fails. Each
failure is a cause; `ClientError.message` words it.
-/

namespace NtpQuery

open Text

/-- **What is wrong with an argument** of a request or a command. -/
inductive ArgumentError where
  /-- The data of a request does not fit the count field of a header. -/
  | uncountableData
  /-- The data of a request does not fit a datagram. -/
  | dataTooLong (length : Nat)
  /-- An address family is given without a host. -/
  | missingHost (flag : String)
  /-- A switch is neither on nor off. -/
  | notYesOrNo (value : String)
  /-- A protocol version does not exist. -/
  | unknownVersion
  /-- A key number is too large. -/
  | keyTooLarge (key : Nat)
  /-- An association ID is too large. -/
  | associationTooLarge (assid : Nat)
  /-- Anything else. -/
  | other (message : String)
  deriving DecidableEq, Repr

/-- The least protocol version that a request may claim. -/
def oldestVersion : Nat := 1

/-- The greatest protocol version that a request may claim. -/
def newestVersion : Nat := 4

/-- The text of a complaint about an argument. -/
def ArgumentError.message : ArgumentError → String
  | uncountableData => "request data too long"
  | dataTooLong length =>
    "request data too long: " ++ decimal length ++ " bytes, limit 468"
  | missingHost flag => "no host name after " ++ flag
  | notYesOrNo value => "expected yes or no, got `" ++ value ++ "'"
  | unknownVersion =>
    "versions " ++ decimal oldestVersion ++ " to " ++ decimal newestVersion
      ++ " are all we know"
  | keyTooLarge key => "key id " ++ decimal key ++ " too large"
  | associationTooLarge assid =>
    "association ID " ++ decimal assid ++ " out of range"
  | other text => text

/-- **Why a client operation failed.** -/
inductive ClientError where
  /-- The network failed. -/
  | net (error : NetError)
  /-- No answer came in time. -/
  | timeout
  /-- A host has no address of the wanted family. -/
  | noHost (host : String)
  /-- The server reports an error. -/
  | refused (code : UInt8)
  /-- The server breaks the protocol. -/
  | protocol (error : ProtocolError)
  /-- An argument is wrong. -/
  | argument (error : ArgumentError)
  deriving DecidableEq, Repr

namespace ClientError

/-- The name of an error code of the protocol; a code without a name
stands as a number. -/
def codeName (code : UInt8) : String :=
  match code.toNat with
  | 1 => "UNSPEC"
  | 2 => "PERMISSION"
  | 3 => "BADFMT"
  | 4 => "BADOP"
  | 5 => "BADASSOC"
  | 6 => "UNKNOWNVAR"
  | 7 => "BADVALUE"
  | n => decimal n

/-- The text of a failure. -/
def message : ClientError → String
  | net error => error.message
  | timeout => "request timed out"
  | noHost host => "can't find host " ++ host
  | refused code => "server returned error " ++ codeName code
  | protocol error => "protocol error: " ++ error.message
  | argument error => error.message

/-- The error number of the operating system behind a failure, if there
is one. -/
def errno? : ClientError → Option Int
  | net error => error.errno?
  | _ => none

end ClientError

end NtpQuery
