import NtpQuery.Command.Peers
import NtpQuery.Command.Settings
import NtpQuery.Command.Variables

/-!
# The commands

The tables of the commands that there are, in the order in which
keywords are matched against them.
-/

namespace NtpQuery

/-- A slot that may be left empty. -/
def optional (kind : ArgumentKind) : Slot := ⟨kind, false⟩

/-- A slot that must be filled. -/
def required (kind : ArgumentKind) : Slot := ⟨kind, true⟩

namespace Standard

/-- The core commands. -/
def core : List (Command Handler) := [
  { keyword := "?"
    slots := [optional .text]
    usage := "[ command ]"
    comment := "tell the use and syntax of commands"
    action := Settings.help },
  { keyword := "help"
    slots := [optional .text]
    usage := "[ command ]"
    comment := "tell the use and syntax of commands"
    action := Settings.help },
  { keyword := "timeout"
    slots := [optional .unsigned]
    usage := "[ msec ]"
    comment := "set the primary receive time out"
    action := Settings.timeout },
  { keyword := "delay"
    slots := [optional .signed]
    usage := "[ msec ]"
    comment := "set the delay added to encryption time stamps"
    action := Settings.delay },
  { keyword := "host"
    slots := [optional .text, optional .text]
    usage := "[ -4|-6 ] [ hostname ]"
    comment := "specify the host whose NTP server we talk to"
    action := Settings.host },
  { keyword := "hostnames"
    slots := [optional .text]
    usage := "[ yes|no ]"
    comment := "specify whether hostnames or net numbers are printed"
    action := Settings.hostnames },
  { keyword := "raw"
    slots := []
    usage := ""
    comment := "do raw mode variable output"
    action := Settings.raw },
  { keyword := "cooked"
    slots := []
    usage := ""
    comment := "do cooked mode variable output"
    action := Settings.cooked },
  { keyword := "authenticate"
    slots := [optional .text]
    usage := "[ yes|no ]"
    comment := "always authenticate requests to this server"
    action := Settings.authenticate },
  { keyword := "ntpversion"
    slots := [optional .unsigned]
    usage := "[ version number ]"
    comment := "set the NTP version number to use for requests"
    action := Settings.ntpVersion },
  { keyword := "keyid"
    slots := [optional .unsigned]
    usage := "[ key# ]"
    comment := "record a keyid for authenticated requests"
    action := Settings.keyId },
  { keyword := "version"
    slots := []
    usage := ""
    comment := "print version number"
    action := Settings.version }]

/-- The slots of a command that reads named variables. -/
def variableSlots : List Slot :=
  [optional .unsigned, optional .text, optional .text, optional .text]

/-- How to use a command that reads named variables. -/
def variableUsage : String :=
  "[ assocID ] [ varname1 ] [ varname2 ] [ varname3 ]"

/-- The extended commands. -/
def extended : List (Command Handler) := [
  { keyword := "associations"
    slots := []
    usage := ""
    comment := "print list of association ID's and statuses for the "
      ++ "server's peers"
    action := Associations.showAnew false },
  { keyword := "passociations"
    slots := []
    usage := ""
    comment := "print list of associations returned by last associations "
      ++ "command"
    action := Associations.showLast false },
  { keyword := "lassociations"
    slots := []
    usage := ""
    comment := "print list of associations including all client information"
    action := Associations.showAnew true },
  { keyword := "lpassociations"
    slots := []
    usage := ""
    comment := "print last obtained list of associations, including client "
      ++ "information"
    action := Associations.showLast true },
  { keyword := "readlist"
    slots := [optional .unsigned]
    usage := "[ assocID ]"
    comment := "read the system or peer variables included in the variable "
      ++ "list"
    action := Variables.readAll },
  { keyword := "rl"
    slots := [optional .unsigned]
    usage := "[ assocID ]"
    comment := "read the system or peer variables included in the variable "
      ++ "list"
    action := Variables.readAll },
  { keyword := "readvar"
    slots := variableSlots
    usage := variableUsage
    comment := "read system or peer variables"
    action := Variables.readNamed .readVariables },
  { keyword := "rv"
    slots := variableSlots
    usage := variableUsage
    comment := "read system or peer variables"
    action := Variables.readNamed .readVariables },
  { keyword := "pstatus"
    slots := [required .unsigned]
    usage := "assocID"
    comment := "print status information returned for a peer"
    action := Variables.readAll },
  { keyword := "clockvar"
    slots := variableSlots
    usage := variableUsage
    comment := "read clock variables"
    action := Variables.readNamed .readClock },
  { keyword := "cv"
    slots := variableSlots
    usage := variableUsage
    comment := "read clock variables"
    action := Variables.readNamed .readClock },
  { keyword := "peers"
    slots := [optional .ipVersion]
    usage := "-4|-6"
    comment := "obtain and print a list of the server's peers [IP version]"
    action := Peers.showTable false },
  { keyword := "lpeers"
    slots := [optional .ipVersion]
    usage := "-4|-6"
    comment := "obtain and print a list of all peers and clients [IP version]"
    action := Peers.showTable true }]

/-- **The tables** of the commands that there are. -/
def tables : Tables Handler := ⟨core, extended⟩

end Standard

end NtpQuery
