import NtpQuery.Client.Error
import NtpQuery.Client.State
import NtpQuery.Terminal

/-!
# Configuration

A configuration holds the sizes of the buffers and the defaults of the
client. It is valid when no size and no wait is zero and the protocol
version exists; of several faults the first in the order of `faults` is
told.
-/

namespace NtpQuery

open Text

/-- **A configuration.** -/
structure Config where
  /-- The sizes of the buffers. -/
  sizes : Sizes := {}
  /-- The defaults of the client. -/
  client : Defaults := {}
  deriving DecidableEq

/-- Why a file cannot be read. -/
inductive ReadError where
  /-- An error number of the operating system. -/
  | os (errno : Int)
  /-- The file is not text. -/
  | notText
  deriving DecidableEq, Repr

/-- The text of a read error. -/
def ReadError.message : ReadError → String
  | os errno => errnoText errno
  | notText => "stream did not contain valid UTF-8"

/-- **Why a configuration cannot be used.** -/
inductive ConfigError where
  /-- Its file cannot be read. -/
  | unreadable (path : String) (cause : ReadError)
  /-- Its file is not TOML, or a value in it is of the wrong kind. -/
  | malformed (path : String)
  /-- A field has a value that is not allowed. -/
  | invalid (field reason : String)
  deriving DecidableEq, Repr

namespace ConfigError

/-- What is said of a file that holds no configuration. -/
def notConfiguration : String := "not a configuration"

/-- The text of a configuration error. -/
def message : ConfigError → String
  | unreadable path cause => "cannot read " ++ path ++ ": " ++ cause.message
  | malformed path => "malformed TOML in " ++ path ++ ": " ++ notConfiguration
  | invalid field reason => "invalid " ++ field ++ ": " ++ reason

/-- The error and what lies behind it, each in its own words. -/
def causes (e : ConfigError) : List String :=
  match e with
  | unreadable _ cause => [e.message, cause.message]
  | malformed _ => [e.message, notConfiguration]
  | invalid _ _ => [e.message]

end ConfigError

namespace Config

/-- What is said of a number that must not be zero. -/
def positive : String := "must be greater than zero"

/-- What is said of a version that does not exist. -/
def versionRange (version : Nat) : String :=
  decimal version ++ " outside " ++ decimal oldestVersion ++ "..="
    ++ decimal newestVersion

/-- The checks of a configuration: whether each fails, its field and
what is said then. -/
def faults (c : Config) : List (Bool × String × String) :=
  [(c.sizes.capacity == 0, "session.capacity", positive),
    (c.sizes.outputSize == 0, "session.output_size", positive),
    (c.client.version.toNat < oldestVersion
        || newestVersion < c.client.version.toNat,
      "engine.version", versionRange c.client.version.toNat),
    (c.client.timeout == 0, "engine.timeout_ms", positive),
    (c.client.secondaryTimeout == 0, "engine.secondary_timeout_ms",
      positive)]

/-- **Checking a configuration.** -/
def validate (c : Config) : Except ConfigError Unit :=
  match c.faults.find? (·.1) with
  | some (_, field, reason) => .error (.invalid field reason)
  | none => .ok ()

end Config

end NtpQuery
