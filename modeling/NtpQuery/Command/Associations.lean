import NtpQuery.Command.Routine
import NtpQuery.Status
import NtpQuery.Text.Column

/-!
# Tables of associations

The commands that show the list of the server's associations, as it was
last read or read anew. A row shows the index by which later commands
can name its association (`&3`), so rows are numbered by their place in
the whole list, also when others are left out.
-/

namespace NtpQuery

open Text

/-- Whether an association is shown without being asked for: it is
configured or reachable. -/
def Association.isNotable (a : Association) : Bool :=
  Status.isConfigured a.status || Status.isReachable a.status

namespace Associations

open Routine

/-- A flag in words. -/
def flagText (b : Bool) : String :=
  if b then "yes" else "no"

/-- The state of authentication in words. -/
def authentication (status : UInt16) : String :=
  if !Status.needsAuthentication status then "none"
  else if Status.isAuthentic status then "ok"
  else "bad"

/-- **The row of an association** with its index. -/
def row (index : Nat) (a : Association) : String :=
  padLeft 3 (decimal index) ++ " " ++ padLeft 5 (decimal a.assid.toNat)
    ++ "  " ++ hexadecimal 4 a.status.toNat
    ++ "   " ++ padLeft 3 (flagText (Status.isConfigured a.status))
    ++ "  " ++ padLeft 4 (flagText (Status.isReachable a.status))
    ++ "  " ++ padLeft 4 (authentication a.status)
    ++ " " ++ padLeft 9 (Status.selectName a.status)
    ++ " " ++ padLeft 11 (Status.lastPeerEvent a.status)
    ++ " " ++ padLeft 2 (decimal (Status.eventCount a.status))

/-- The rows of the associations to be shown; the first has the given
index. -/
def rows (all : Bool) : Nat → List Association → List String
  | _, [] => []
  | index, a :: rest =>
    if all || a.isNotable then row index a :: rows all (index + 1) rest
    else rows all (index + 1) rest

/-- Says that the list is empty. -/
def noneReturned : String :=
  "No association ID's returned"

/-- The two lines above the rows. -/
def heading : List String :=
  ["ind assid status  conf reach auth condition  last_event cnt",
    String.ofList (List.replicate 59 '=')]

/-- The lines that show a list of associations. -/
def table (all : Bool) (list : List Association) : List String :=
  if list.isEmpty then [noneReturned] else heading ++ rows all 1 list

/-- Shows the list of associations as it was last read. -/
def showLast (all : Bool) : Handler := fun _ => do
  (table all (← state).associations).forM printLine

/-- Reads the list of associations anew and shows it. -/
def showAnew (all : Bool) : Handler := fun i => do
  refresh
  showLast all i

end Associations

end NtpQuery
