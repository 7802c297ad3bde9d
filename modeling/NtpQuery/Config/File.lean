import NtpQuery.Config.Basic
import NtpQuery.Text.Utf8
import NtpQuery.Toml.Document

/-!
# Configuration files

A configuration file is TOML with the tables `session` and `engine`.
What it leaves out has its usual value, and what it holds besides is
ignored; a value of the wrong kind or out of range makes it malformed.

A record may also be given as an array, which gives its fields by
position. A date holds none of the fields of any record, so a record
that is a date has its usual values.

What a table holds besides is read before it is ignored, so a number in
it that has no value makes the file malformed. What an array holds beyond
the fields of a record is not read.
-/

namespace NtpQuery

namespace Toml

/-- **The fields of a record** that are given, by their names. -/
def Value.fields? (names : List String) : Value → Option Entries
  | table _ entries =>
    if entries.all fun e => names.contains e.1 || e.2.isLegible then
      some entries
    else none
  | array _ items => some (names.zip items)
  | datetime _ => some []
  | _ => none

/-- A field that is given is read, and one that is not has its usual
value. -/
def field? {α : Type} (given : Option Value) (read : Value → Option α)
    (usual : α) : Option α :=
  match given with
  | none => some usual
  | some v => read v

/-- A whole number below a bound. -/
def Value.below? (bound : Nat) : Value → Option Nat
  | integer (some n) => if 0 ≤ n ∧ n < bound then some n.toNat else none
  | _ => none

/-- A number of 64 bits with a sign. -/
def Value.int64? : Value → Option Int64
  | integer (some n) =>
    if Int64.minValue.toInt ≤ n ∧ n ≤ Int64.maxValue.toInt then
      some (Int64.ofInt n)
    else none
  | _ => none

/-- A truth value. -/
def Value.boolean? : Value → Option Bool
  | boolean b => some b
  | _ => none

/-- A string. -/
def Value.string? : Value → Option String
  | string s => some s
  | _ => none

end Toml

open Toml (Value field?)

/-- The sizes in the table `session`. -/
def Sizes.ofToml? (v : Value) : Option Sizes := do
  let given ← v.fields? ["capacity", "output_size"]
  let usual : Sizes := {}
  let size := Value.below? UInt64.size
  return {
    capacity := ← field? (given.lookup "capacity") size usual.capacity
    outputSize := ← field? (given.lookup "output_size") size
      usual.outputSize }

/-- The defaults in the table `engine`. -/
def Defaults.ofToml? (v : Value) : Option Defaults := do
  let given ← v.fields? ["host", "port", "timeout_ms",
    "secondary_timeout_ms", "delay_ms", "version", "show_hostnames", "raw",
    "retries"]
  let usual : Defaults := {}
  let wait := fun v => (Value.below? UInt64.size v).map UInt64.ofNat
  return {
    host := ← field? (given.lookup "host") Value.string? usual.host
    port := ← field? (given.lookup "port")
      (fun v => (v.below? UInt16.size).map UInt16.ofNat) usual.port
    timeout := ← field? (given.lookup "timeout_ms") wait usual.timeout
    secondaryTimeout := ← field? (given.lookup "secondary_timeout_ms") wait
      usual.secondaryTimeout
    delay := ← field? (given.lookup "delay_ms") Value.int64? usual.delay
    version := ← field? (given.lookup "version")
      (fun v => (v.below? UInt8.size).map UInt8.ofNat) usual.version
    showHostnames := ← field? (given.lookup "show_hostnames")
      Value.boolean? usual.showHostnames
    raw := ← field? (given.lookup "raw") Value.boolean? usual.raw
    retries := ← field? (given.lookup "retries")
      (fun v => (v.below? UInt32.size).map UInt32.ofNat) usual.retries }

namespace Config

/-- The configuration in the root table of a file. -/
def ofToml? (v : Value) : Option Config := do
  let given ← v.fields? ["session", "engine"]
  return {
    sizes := ← field? (given.lookup "session") Sizes.ofToml? {}
    client := ← field? (given.lookup "engine") Defaults.ofToml? {} }

/-- **The configuration in a text**, which stands in the file `path`. The
text is first read as a document. -/
def ofText (path : String) (text : List Char)
    (document? : List Char → Option Value := Toml.parse?) :
    Except ConfigError Config :=
  match (document? text).bind ofToml? with
  | none => .error (.malformed path)
  | some c =>
    match c.validate with
    | .ok () => .ok c
    | .error e => .error e

/-- **Loading a configuration** from a file. The file's content is not
there if no such file exists. -/
def load (path : String) (content : Option Bytes)
    (document? : List Char → Option Value := Toml.parse?) :
    Except ConfigError Config :=
  match content with
  | none => .error (.unreadable path (.os 2))
  | some bytes =>
    match Text.decode? bytes with
    | none => .error (.unreadable path .notText)
    | some text => ofText path text document?

/-- Loading the configuration from the usual file; there need not be
one. -/
def loadUsual (path : String) (content : Option Bytes)
    (document? : List Char → Option Value := Toml.parse?) :
    Except ConfigError Config :=
  match content with
  | none => .ok {}
  | some _ => load path content document?

/-- A file or folder in a folder. -/
def join (folder name : String) : String :=
  if folder.toList.getLast? = some '/' then folder ++ name
  else folder ++ "/" ++ name

/-- **The usual place of the configuration file**: under the folder for
configurations, which is given by its absolute path or lies in the home
folder. -/
def usualPath (configHome home : Option String) : String :=
  let folder :=
    match configHome.filter fun p => p.toList.head? = some '/', home with
    | some folder, _ => folder
    | none, some home => join home ".config"
    | none, none => "."
  join (join folder "ntpq-embed") "config.toml"

end Config

end NtpQuery
