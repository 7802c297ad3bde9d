import NtpQuery.Client.Error
import NtpQuery.Client.State
import NtpQuery.Net.Transport
import NtpQuery.World

/-!
# Clients

A `Client` puts together what it remembers, the defaults it returns to
and the transport it talks through. This module holds the operations
that send nothing: resetting and choosing the server.

The list of associations belongs to the current server. So whenever the
address of the server changes, the list is dropped and the transport is
closed, which drops late answers of the old server as well.
-/

namespace NtpQuery

/-- **A client** over a transport. -/
structure Client (τ : Type) where
  /-- What it remembers. -/
  state : Client.State
  /-- What a reset returns to. -/
  defaults : Defaults
  /-- What it talks through. -/
  transport : τ

namespace Client

variable {τ : Type}

/-- A client in its first state. -/
def new (d : Defaults) (t : τ) : Client τ :=
  ⟨State.ofDefaults d, d, t⟩

/-- The client with its state changed by `f`. -/
def modify (c : Client τ) (f : State → State) : Client τ :=
  { c with state := f c.state }

/-- The address of a host at the control port, as an address family
allows. -/
def locate (w : World) (name : String) (family : AddressFamily)
    (c : Client τ) : Except ClientError SocketAddr :=
  match w.resolve family name with
  | some ip => .ok ⟨ip, c.defaults.port⟩
  | none => .error (.noHost name)

variable [Transport τ]

/-- **Resetting**: the socket is dropped and the state is that of the
defaults. -/
def reset (c : Client τ) : Client τ :=
  { c with
    state := State.ofDefaults c.defaults
    transport := Transport.close c.transport }

/-- Takes on other defaults and resets to them. -/
def adopt (c : Client τ) (d : Defaults) : Client τ :=
  reset { c with defaults := d }

/-- **Turning to a server** whose address is known. If the address is
not the current one, the list of associations is dropped and the
transport closed. -/
def turnTo (host : Host) (family : AddressFamily) (c : Client τ) :
    Client τ :=
  let c :=
    if c.state.host.map (·.addr) = some host.addr then c
    else
      { c with
        state := { c.state with associations := [] }
        transport := Transport.close c.transport }
  c.modify fun s => { s with family := family, host := some host }

/-- **Choosing the server** by its name or address. A host without an
address of the family changes nothing. -/
def selectHost (w : World) (name : String) (family : AddressFamily)
    (c : Client τ) : Except ClientError Unit × Client τ :=
  match c.locate w name family with
  | .error e => (.error e, c)
  | .ok addr => (.ok (), c.turnTo ⟨name, addr⟩ family)

/-- **The address to send to**: that of the current server, which is the
default host when none has been chosen yet. -/
def serverAddress (w : World) (c : Client τ) :
    Except ClientError SocketAddr × Client τ :=
  match c.state.host with
  | some host => (.ok host.addr, c)
  | none =>
    match c.locate w c.defaults.host c.state.family with
    | .error e => (.error e, c)
    | .ok addr =>
      (.ok addr, c.turnTo ⟨c.defaults.host, addr⟩ c.state.family)

end Client

end NtpQuery
