import NtpQuery.Net.Address

/-!
# What a client remembers

A client keeps settings, the current server and the last list of its
associations between requests. Most settings start from the client's
*defaults*, to which it can return at any time; the rest of its state
starts empty.

Two settings are only kept and shown: the delay, and the key with the
switch for authentication. Requests are never signed with them.
-/

namespace NtpQuery

/-- **Where a client starts from**, and what a reset returns to. -/
structure Defaults where
  /-- The host that is queried when no other has been chosen. -/
  host : String := "localhost"
  /-- The control port of servers. -/
  port : UInt16 := 123
  /-- The wait for the first fragment of a response, in milliseconds. -/
  timeout : UInt64 := 5000
  /-- The wait for each further fragment, in milliseconds. -/
  secondaryTimeout : UInt64 := 3000
  /-- The authentication delay, in milliseconds. -/
  delay : Int64 := 0
  /-- The version that requests claim. -/
  version : UInt8 := 2
  /-- Whether tables show host names or addresses. -/
  showHostnames : Bool := true
  /-- Whether variables are shown as they came. -/
  raw : Bool := false
  /-- How often a request is sent again when nothing answers it. -/
  retries : UInt32 := 1
  deriving DecidableEq

/-- The server that is being queried. -/
structure Host where
  /-- Its name, as given. -/
  name : String
  /-- Its address. -/
  addr : SocketAddr
  deriving DecidableEq

/-- **An association of the server**, as its status list tells it. -/
structure Association where
  /-- The association ID. -/
  assid : UInt16
  /-- The peer status word. -/
  status : UInt16
  deriving DecidableEq, Repr

namespace Client

/-- **Everything a client remembers** between requests. -/
structure State where
  /-- The current server, if one has been chosen. -/
  host : Option Host
  /-- The sequence number of the last request. -/
  sequence : UInt16
  /-- The wait for the first fragment of a response, in milliseconds. -/
  timeout : UInt64
  /-- The wait for each further fragment, in milliseconds. -/
  secondaryTimeout : UInt64
  /-- The authentication delay, in milliseconds; only kept. -/
  delay : Int64
  /-- The version that requests claim. -/
  version : UInt8
  /-- Whether requests should be authenticated; only kept. -/
  authenticate : Bool
  /-- The key to authenticate with; only kept. -/
  key : Option UInt32
  /-- Whether variables are shown as they came. -/
  raw : Bool
  /-- Whether tables show host names or addresses. -/
  showHostnames : Bool
  /-- The address family that the current server was chosen with. -/
  family : AddressFamily
  /-- The last list of associations. -/
  associations : List Association
  deriving DecidableEq

/-- The state that a client with these defaults starts in. -/
def State.ofDefaults (d : Defaults) : State where
  host := none
  sequence := 0
  timeout := d.timeout
  secondaryTimeout := d.secondaryTimeout
  delay := d.delay
  version := d.version
  authenticate := false
  key := none
  raw := d.raw
  showHostnames := d.showHostnames
  family := .any
  associations := []

/-- The state after one more sequence number has been drawn; the number
is `sequence` of that state. -/
def State.drawSequence (s : State) : State :=
  { s with sequence := s.sequence + 1 }

end Client

end NtpQuery
