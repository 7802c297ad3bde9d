import NtpQuery.Text.Numeral

/-!
# Status words

Every response carries a status word. How its sixteen bits divide up
depends on what the response is about: the system, a peer or a
reference clock.

```text
system   leap (2) | source (6)           | count (4) | event (4)
peer     flags (5)        | select (3)   | count (4) | event (4)
clock    status (8)                      | last event (8)
```
-/

namespace NtpQuery.Status

open Text

/-- The leap indicator. -/
def leapNames : List String :=
  ["leap_none", "leap_add_secs", "leap_del_secs", "leap_alarm"]

/-- The kinds of synchronization source. -/
def sourceNames : List String :=
  ["sync_unspec", "sync_pps", "sync_lf_radio", "sync_hf_radio",
    "sync_uhf_radio", "sync_local", "sync_ntp", "sync_other",
    "sync_wristwatch", "sync_telephone"]

/-- The events of the system. -/
def systemEventNames : List String :=
  ["unspecified", "freq_not_set", "freq_set", "spike_detect", "freq_mode",
    "clock_sync", "restart", "panic_stop", "no_system_peer", "leap_armed",
    "leap_disarmed", "leap_event", "clock_step", "kern", "TAI",
    "stale_leapsecond_values"]

/-- The outcomes of peer selection. -/
def selectNames : List String :=
  ["reject", "falsetick", "excess", "outlier", "candidate", "backup",
    "sys.peer", "pps.peer"]

/-- The marks for the outcomes of peer selection in a table. -/
def tallyMarks : List Char :=
  [' ', 'x', '.', '-', '+', '#', '*', 'o']

/-- The events of a peer; event zero has no name. -/
def peerEventNames : List String :=
  ["", "mobilize", "demobilize", "unreachable", "reachable", "restart",
    "no_reply", "rate_exceeded", "access_denied", "leap_armed", "sys_peer",
    "clock_event", "bad_auth", "popcorn", "interleave_mode",
    "interleave_error"]

/-- The states of a reference clock. -/
def clockNames : List String :=
  ["clk_unspec", "clk_noreply", "clk_badformat", "clk_fault",
    "clk_badsignal", "clk_baddate", "clk_badtime"]

/-- Whether the bit of the given value is set. -/
def hasBit (status : UInt16) (bit : Nat) : Bool :=
  status.toNat / bit % 2 == 1

/-- Whether the peer is configured. -/
def isConfigured (status : UInt16) : Bool := hasBit status 0x8000

/-- Whether the peer is to be authenticated. -/
def needsAuthentication (status : UInt16) : Bool := hasBit status 0x4000

/-- Whether the peer is authentic. -/
def isAuthentic (status : UInt16) : Bool := hasBit status 0x2000

/-- Whether the peer is reachable. -/
def isReachable (status : UInt16) : Bool := hasBit status 0x1000

/-- Whether the peer is a broadcast server. -/
def isBroadcast (status : UInt16) : Bool := hasBit status 0x0800

/-- The number of events since the last reading. -/
def eventCount (status : UInt16) : Nat := status.toNat / 16 % 16

/-- The number of the last event. -/
def event (status : UInt16) : Nat := status.toNat % 16

/-- The outcome of peer selection. -/
def select (status : UInt16) : Nat := status.toNat / 256 % 8

/-- The name of the outcome of peer selection. -/
def selectName (status : UInt16) : String :=
  selectNames.getD (select status) ""

/-- The mark of the outcome of peer selection. -/
def tally (status : UInt16) : Char :=
  tallyMarks.getD (select status) ' '

/-- The name of the last event of a peer. -/
def lastPeerEvent (status : UInt16) : String :=
  peerEventNames.getD (event status) ""

/-- A number of events in words. -/
def countText : Nat → String
  | 0 => "no events"
  | 1 => "1 event"
  | n => decimal n ++ " events"

/-- **A system status word** in words. -/
def describeSystem (status : UInt16) : String :=
  ", ".intercalate
    [leapNames.getD (status.toNat / 16384) "",
      sourceNames.getD (status.toNat / 256 % 64) "sync_unknown",
      countText (eventCount status),
      systemEventNames.getD (event status) ""]

/-- The names of the flags that are set in a peer status word. -/
def flagNames (status : UInt16) : List String :=
  [(isConfigured status, "conf"), (needsAuthentication status, "authenb"),
    (isAuthentic status, "auth"), (isReachable status, "reach"),
    (isBroadcast status, "bcast")].filterMap fun (set, name) =>
      if set then some name else none

/-- **A peer status word** in words. -/
def describePeer (status : UInt16) : String :=
  ", ".intercalate
    (flagNames status
      ++ [selectName status, countText (eventCount status)]
      ++ if event status = 0 then [] else [lastPeerEvent status])

/-- The name of a state of a reference clock. -/
def clockName (code : Nat) : String :=
  clockNames.getD code "clk_unknown"

/-- **A clock status word** in words. -/
def describeClock (status : UInt16) : String :=
  clockName (status.toNat / 256) ++ ", last event "
    ++ clockName (status.toNat % 256)

end NtpQuery.Status
