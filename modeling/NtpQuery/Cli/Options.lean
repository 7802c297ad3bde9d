import NtpQuery.Text.Numeral

/-!
# Options of the command line

The program takes four options with values, of which the one for a
command may be repeated, and one further argument, the server. A value
may be joined to its option (`--capacity=9`, `-cversion`) or follow it;
one that follows must not look like an option itself. After `--` no
argument is an option.

Arguments are read from left to right, and the first that asks for help
or the version, or that is wrong, settles what happens.
-/

namespace NtpQuery.Cli

open Text

/-- **What the arguments ask for.** -/
structure Options where
  /-- The configuration file. -/
  config : Option String := none
  /-- The capacity of the capture buffer. -/
  capacity : Option Nat := none
  /-- The size of the buffer for the output of one command. -/
  outputSize : Option Nat := none
  /-- The commands to run, in order. -/
  commands : List String := []
  /-- The server to query. -/
  host : Option String := none
  deriving DecidableEq

/-- **The outcome of reading arguments.** -/
inductive Reading where
  /-- The program is to run. -/
  | options (o : Options)
  /-- Help is asked for. -/
  | help
  /-- The version is asked for. -/
  | version
  /-- The arguments are wrong. -/
  | misuse
  deriving DecidableEq

/-- An option that takes a value. -/
inductive Key where
  /-- The configuration file. -/
  | config
  /-- The capacity of the capture buffer. -/
  | capacity
  /-- The size of the buffer for the output of one command. -/
  | outputSize
  /-- A command to run. -/
  | command
  deriving DecidableEq, Repr

/-- The option with a long name. -/
def Key.ofName? (name : String) : Option Key :=
  if name = "config" then some config
  else if name = "capacity" then some capacity
  else if name = "output-size" then some outputSize
  else if name = "command" then some command
  else none

namespace Options

/-- A value for an option that must not have one yet. -/
def once {α : Type} (old new : Option α) : Option (Option α) :=
  match old, new with
  | none, some a => some (some a)
  | _, _ => none

/-- A size in bytes. -/
def size? (value : String) : Option Nat :=
  readUnsigned? 10 UInt64.size value.toList

/-- **Giving a value to an option.** A path must not be empty, and a
size must be a number. -/
def set (o : Options) (key : Key) (value : String) : Option Options :=
  match key with
  | .config =>
    (once o.config (if value.isEmpty then none else some value)).map
      fun v => { o with config := v }
  | .capacity =>
    (once o.capacity (size? value)).map fun v => { o with capacity := v }
  | .outputSize =>
    (once o.outputSize (size? value)).map fun v => { o with outputSize := v }
  | .command => some { o with commands := o.commands ++ [value] }

/-- Taking an argument as the server; there is only one. -/
def setHost (o : Options) (value : String) : Option Options :=
  (once o.host (some value)).map fun v => { o with host := v }

end Options

/-- **One argument**, by its form. -/
inductive Word where
  /-- The mark after which no argument is an option. -/
  | divider
  /-- Asks for help. -/
  | help
  /-- Asks for the version. -/
  | version
  /-- An option, with its value if that is joined to it. -/
  | option (key : Key) (value : Option String)
  /-- An argument that is no option. -/
  | plain
  /-- Looks like an option and is none. -/
  | unknown
  deriving DecidableEq

namespace Word

/-- The form of a long option, after its two dashes. -/
def ofLong (body : List Char) : Word :=
  let name := String.ofList (body.takeWhile (· != '='))
  let value := match body.dropWhile (· != '=') with
    | _ :: rest => some (String.ofList rest)
    | [] => none
  if name = "help" ∧ value = none then help
  else if name = "version" ∧ value = none then version
  else
    match Key.ofName? name with
    | some key => option key value
    | none => unknown

/-- The form of a short option, after its dash. -/
def ofShort : List Char → Word
  | 'h' :: _ => help
  | 'V' :: _ => version
  | ['c'] => option .command none
  | 'c' :: '=' :: rest => option .command (some (String.ofList rest))
  | 'c' :: rest => option .command (some (String.ofList rest))
  | _ => unknown

/-- **The form of an argument.** A single dash is no option. -/
def ofArgument (argument : String) : Word :=
  match argument.toList with
  | ['-', '-'] => divider
  | '-' :: '-' :: body => ofLong body
  | ['-'] => plain
  | '-' :: body => ofShort body
  | _ => plain

end Word

namespace Reading

/-- Reading arguments of which none is an option. -/
def plain : Options → List String → Reading
  | o, [] => options o
  | o, argument :: rest =>
    match o.setHost argument with
    | some o => plain o rest
    | none => misuse

/-- Reading arguments after those that have given the options so far. -/
def after : Options → List String → Reading
  | o, [] => options o
  | o, argument :: rest =>
    match Word.ofArgument argument with
    | .divider => plain o rest
    | .help => help
    | .version => version
    | .unknown => misuse
    | .plain =>
      match o.setHost argument with
      | some o => after o rest
      | none => misuse
    | .option key (some value) =>
      match o.set key value with
      | some o => after o rest
      | none => misuse
    | .option key none =>
      match rest with
      | [] => misuse
      | value :: rest =>
        if Word.ofArgument value ≠ .plain then misuse
        else
          match o.set key value with
          | some o => after o rest
          | none => misuse

/-- **Reading the arguments of the program.** -/
def ofArguments (arguments : List String) : Reading :=
  after {} arguments

/-- The configuration file that the program is to use, in place of the
usual one. -/
def configPath (usual : String) : Reading → String
  | options o => o.config.getD usual
  | _ => usual

/-- Whether the program is to take its commands from the input. -/
def readsInput : Reading → Bool
  | options o => o.commands.isEmpty
  | _ => false

end Reading

end NtpQuery.Cli
