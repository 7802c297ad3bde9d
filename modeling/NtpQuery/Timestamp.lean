import NtpQuery.Text.Numeral

/-!
# Timestamps and intervals

Servers send times as hexadecimal fixed-point numbers, with the seconds
of the NTP era before the point. Tables show how long ago such a time
was, in the largest unit that keeps the number short.
-/

namespace NtpQuery

open Text

/-- The Unix epoch, in seconds of NTP era zero. -/
def unixEpoch : Nat := 2208988800

/-- The current time in seconds of NTP era zero; a clock before the Unix
epoch counts as standing at it. -/
def currentSeconds (unixSeconds : Int) : Nat :=
  unixSeconds.toNat + unixEpoch

/-- **The whole seconds of a timestamp** such as
`0xe8b3c4d5.12345678`. -/
def ntpSeconds? (s : List Char) : Option Nat :=
  match s with
  | '0' :: 'x' :: rest =>
    readUnsigned? 16 UInt64.size (rest.takeWhile (· != '.'))
  | _ => none

/-- **An interval in a short form**: seconds, minutes, hours or days. -/
def interval (seconds : Nat) : String :=
  if seconds ≤ 2048 then decimal seconds
  else if seconds ≤ 300 * 60 then decimal (seconds / 60) ++ "m"
  else if seconds ≤ 96 * 3600 then decimal (seconds / 3600) ++ "h"
  else decimal (seconds / 86400) ++ "d"

end NtpQuery
