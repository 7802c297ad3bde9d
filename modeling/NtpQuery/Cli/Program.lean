import NtpQuery.Cli.Console
import NtpQuery.Cli.Options
import NtpQuery.Config.File
import NtpQuery.Net.Udp
import NtpQuery.Session.Basic

/-!
# The program

The program loads its configuration, opens a session, chooses the server
if one is given, runs its commands and closes the session again. All of
it is a function of the arguments and of what can be read from outside.

Reading arguments and reading TOML are the work of libraries. The program
takes them as it finds them: `Environment` has a function for each, for
which `Reading.ofArguments` and `Toml.parse?` stand unless another is given.
-/

namespace NtpQuery.Cli

/-- **What the program can read** besides its arguments, and how it reads
arguments and documents. -/
structure Environment where
  /-- The folder for configurations, if the environment names one. -/
  configHome : Option String
  /-- The home folder, if the environment names one. -/
  home : Option String
  /-- The content of the file at a path. -/
  file : String → Option Bytes
  /-- The standard input. -/
  stdin : Bytes
  /-- What arguments are read as. -/
  reading : List String → Reading := Reading.ofArguments
  /-- The document in a text, if there is one. -/
  document? : List Char → Option Toml.Value := Toml.parse?

/-- The configuration file that the options name, or else the usual
one. -/
def loadFile (env : Environment) (o : Options) : Except ConfigError Config :=
  match o.config with
  | some path => Config.load path (env.file path) env.document?
  | none =>
    let path := Config.usualPath env.configHome env.home
    Config.loadUsual path (env.file path) env.document?

/-- The configuration with what the options say in place of what its file
says. -/
def override (o : Options) (c : Config) : Config where
  sizes :=
    { capacity := o.capacity.getD c.sizes.capacity
      outputSize := o.outputSize.getD c.sizes.outputSize }
  client := { c.client with host := o.host.getD c.client.host }

/-- **The configuration of the program.** It is checked again after the
options have changed it. -/
def configuration (env : Environment) (o : Options) :
    Except ConfigError Config := do
  let c := override o (← loadFile env o)
  c.validate
  return c

/-- Runs the commands of the options, or else those of the input. The
answer says whether the session is to be closed. -/
def runCommands (sizes : Sizes) (o : Options) (stdin : Bytes) (c : Console) :
    SessionProgram (Bool × Console) :=
  if o.commands.isEmpty then
    followInput sizes ((inputLines stdin).map Request.ofLine) c
  else do
    return (true, ← followArguments sizes o.commands c)

/-- **What the program does with its session.** It ends early if the
session cannot be opened or the server cannot be chosen. -/
def conversation (sizes : Sizes) (o : Options) (stdin : Bytes) :
    SessionProgram Console := do
  let opened ← Terminal.run sizes ["open"]
  if opened.status ≠ 0 then
    return { Console.display {} opened with status := opened.status }
  else
    let selected ← match o.host with
      | none => pure ⟨0, ""⟩
      | some host => Terminal.run sizes ["host", host]
    let c := Console.display {} selected
    if selected.status ≠ 0 then
      SessionProgram.ask .destroy
      return { c with status := selected.status }
    else
      let (close, c) ← runCommands sizes o stdin c
      if close then
        SessionProgram.ask .destroy
        return c
      else return c

/-- The text of the version. -/
def versionText : String := "ntpq-embed 0.1.0\n"

/-- The text of the help. -/
def helpText : String :=
  "\n".intercalate [
    "Query NTP servers through an in-process session",
    "",
    "Usage: ntpq-embed [OPTIONS] [HOST]",
    "",
    "Arguments:",
    "  [HOST]  Server to query",
    "",
    "Options:",
    "      --config <PATH>    Config file to use instead of the default "
      ++ "location",
    "      --capacity <N>     Capture buffer size in bytes",
    "      --output-size <N>  Per-command output buffer size in bytes",
    "  -c, --command <CMD>    Command to run; may be repeated. Without any, "
      ++ "commands are read from stdin",
    "  -h, --help             Print help",
    "  -V, --version          Print version",
    ""]

/-- What is said when the arguments are wrong. -/
def usageText : String :=
  "Usage: ntpq-embed [OPTIONS] [HOST]\n\nFor more information, try '--help'.\n"

/-- **The program**, from its arguments and its surroundings to what it
leaves behind, log messages apart. Its session talks through the given
transport. -/
def run {τ : Type} [Transport τ] (w : World) (t : τ) (env : Environment)
    (arguments : List String) : Console :=
  match env.reading arguments with
  | .help => { stdout := helpText }
  | .version => { stdout := versionText }
  | .misuse => { stderr := usageText, status := 2 }
  | .options o =>
    match configuration env o with
    | .error e =>
      Console.abort {} "Failed to load configuration" e.causes
    | .ok c =>
      ((Session.new c.client t Standard.tables).runProgram w
        (conversation c.sizes o env.stdin)).1

end NtpQuery.Cli
