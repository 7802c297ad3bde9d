import NtpQuery.Cli.Program

/-!
# The command line program

Reads the arguments, the environment, the configuration file and the
standard input, and writes what the program leaves behind.
-/

namespace NtpQuery.Cli

/-- The world of the program: without a network, no host name can be
looked up. -/
def world : World where
  now := 0
  hosts := fun _ => []
  openFiles := .unreadable

/-- The content of a file, if it can be read. -/
def readFile? (path : String) : IO (Option Bytes) := do
  try
    return some (← IO.FS.readBinFile path).toList
  catch _ => return none

end NtpQuery.Cli

open NtpQuery NtpQuery.Cli

/-- Runs the program. -/
def main (arguments : List String) : IO UInt32 := do
  let configHome ← IO.getEnv "XDG_CONFIG_HOME"
  let home ← IO.getEnv "HOME"
  let reading := Reading.ofArguments arguments
  let path := reading.configPath (Config.usualPath configHome home)
  let content ← readFile? path
  let stdin ←
    if reading.readsInput then (← IO.getStdin).readBinToEnd
    else pure ByteArray.empty
  let console := run world (Udp.closed false)
    { configHome := configHome
      home := home
      file := fun p => if p = path then content else none
      stdin := stdin.toList }
    arguments
  IO.print console.stdout
  IO.eprint console.stderr
  return UInt32.ofNat console.status
