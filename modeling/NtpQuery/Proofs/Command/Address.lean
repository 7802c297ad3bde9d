import NtpQuery.Net.Script
import NtpQuery.Proofs.Client.Host
import NtpQuery.Session.Run

/-!
# Addresses of hosts

A host name is resolved in two places: when a word is read as an address,
and when a client turns to a server. Both take the first address of the
wanted family among the answers for the name, where a literal is the only
answer for itself (`World.answers`). So a word that is read as an address
is a server that the client can turn to, at the same address
(`Client.resolvers_agree`).

Turning to a server either changes nothing at all or is done as a whole.
-/

namespace NtpQuery

namespace World

/-- **The answers for a host name.** A literal is the answer for itself and
is not looked up. -/
def answers (w : World) (name : String) : List IpAddr :=
  match IpAddr.ofText? name with
  | some ip => [ip]
  | none => w.lookup name

/-- **Of the answers, the first of the family counts.** -/
theorem resolve_eq_find? (w : World) (family : AddressFamily)
    (name : String) :
    w.resolve family name = (w.answers name).find? family.includes := by
  unfold resolve answers
  cases IpAddr.ofText? name with
  | none => rfl
  | some ip =>
    show (if family.includes ip then some ip else none) = _
    cases h : family.includes ip <;> simp [h]

end World

/-- **Reading a word as an address** finds the first answer of the family,
or says which word has none. Nothing else is looked at or changed. -/
theorem Coercion.coerce_address {κ : Type} [Surroundings κ] (name : String)
    (k : κ) :
    coerce .address name k =
      (match ((Surroundings.world k).answers name).find?
          (Surroundings.family k).includes with
        | some ip => .ok (.address ⟨ip, Surroundings.port k⟩)
        | none => .error (.invalidAddress name), k) := by
  show (address name k, k) = _
  unfold address
  rewrite [World.resolve_eq_find?]
  rfl

namespace Client

variable {τ : Type} [Transport τ]

/-- **Turning to a server by its name** finds the first answer of the
family, or says which name has none and changes nothing. -/
theorem selectHost_eq (w : World) (name : String) (family : AddressFamily)
    (c : Client τ) :
    c.selectHost w name family =
      match (w.answers name).find? family.includes with
      | some ip => (.ok (), c.turnTo ⟨name, ip, c.defaults.port⟩ family)
      | none => (.error (.noHost name), c) := by
  unfold selectHost locate
  rw [World.resolve_eq_find?]
  cases (w.answers name).find? family.includes <;> rfl

/-- **The client behind a server that it has turned to.** Only a server at
another address than before closes the transport and empties the list of
associations. -/
theorem turnTo_eq (c : Client τ) (host : Host) (family : AddressFamily) :
    let same := c.state.host.map (·.addr) = some host.addr
    c.turnTo host family =
      { c with
        transport := if same then c.transport
          else Transport.close c.transport
        state := { c.state with
          host := some host
          family := family
          associations := if same then c.state.associations else [] } } := by
  intro same
  rcases turnTo_cases c host family with ⟨h, heq⟩ | ⟨h, heq⟩
  · rw [heq, if_pos h, if_pos h]
  · rw [heq, if_neg h, if_neg h]

/-- **A word is read as the address of the server that the client can turn
to under that name**, in the same world, family and port. It is the literal
itself, whatever is looked up, if the name is a literal of the family, and
else the first address of the family that is looked up. Where there is
none, both fail and name the word, and the client stays as it was. A client
that turns to the server has it as its host, in the family; it closes its
transport and forgets its associations if it had no host at that address,
and keeps them if it had; and it keeps everything else. -/
theorem resolvers_agree {κ : Type} [Surroundings κ] {k : κ} {c : Client τ}
    (hport : Surroundings.port k = c.defaults.port) (name : String) :
    let w := Surroundings.world k
    let family := Surroundings.family k
    ∃ found : Option SocketAddr,
      found = (match IpAddr.ofText? name with
          | some ip => if family.includes ip then some ip else none
          | none => (w.lookup name).find? family.includes).map
        (⟨·, c.defaults.port⟩)
      ∧ Coercion.coerce .address name k =
        (match found with
          | some addr => .ok (.address addr)
          | none => .error (.invalidAddress name), k)
      ∧ (c.selectHost w name family).1 =
        (match found with
          | some _ => .ok ()
          | none => .error (.noHost name))
      ∧ (found = none → (c.selectHost w name family).2 = c)
      ∧ ∀ addr, found = some addr →
        let same := c.state.host.map (·.addr) = some addr
        (c.selectHost w name family).2 =
          { c with
            transport := if same then c.transport
              else Transport.close c.transport
            state := { c.state with
              host := some ⟨name, addr⟩
              family := family
              associations :=
                if same then c.state.associations else [] } } := by
  intro w family
  refine ⟨((w.answers name).find? family.includes).map
    (⟨·, c.defaults.port⟩), ?_, ?_, ?_, ?_, ?_⟩
  · rw [← World.resolve_eq_find?]
    rfl
  · rw [Coercion.coerce_address, hport]
    cases (w.answers name).find? family.includes <;> rfl
  · rw [selectHost_eq]
    cases (w.answers name).find? family.includes <;> rfl
  · intro hnone
    rw [selectHost_eq, Option.map_eq_none_iff.mp hnone]
  · intro addr hsome
    obtain ⟨ip, hip, rfl⟩ := Option.map_eq_some_iff.mp hsome
    rw [selectHost_eq, hip]
    exact turnTo_eq c ⟨name, ip, c.defaults.port⟩ family

/-- A name with an IPv6 and two IPv4 addresses, for a client that has an
IPv4 server at another port. An IPv4 literal stands for itself although the
resolver would give another address, and an IPv6 literal is refused for
IPv4 although the resolver would give an address. -/
theorem resolvers_agree_dual :
    let first : IpAddr := .v4 #v[192, 0, 2, 1]
    let last : IpAddr := .v6 #v[0, 0, 0, 0, 0, 0, 0, 1]
    let w : World := ⟨0, fun name => if name = "ntp" then
      [last, first, .v4 #v[192, 0, 2, 2]] else [first], .files 8,
      fun _ => true⟩
    let c : Client (Traced (Exchange Script)) :=
      (new { port := 124 } ⟨⟨⟨[]⟩, []⟩, []⟩).modify fun s =>
        { s with family := .v4, host := some ⟨"old", first, 123⟩ }
    let c₆ := c.modify fun s => { s with family := .v6 }
    let r : Run (Traced (Exchange Script)) Tape :=
      ⟨w, c, ⟨[], []⟩, .initial, []⟩
    let r₆ := { r with client := c₆ }
    let literal : IpAddr := .v4 #v[198, 51, 100, 7]
    Surroundings.port r = c.defaults.port
      ∧ (Coercion.coerce .address "ntp" r).1
        = .ok (.address ⟨first, 124⟩)
      ∧ (c.selectHost w "ntp" .v4).2.state.host
        = some ⟨"ntp", first, 124⟩
      ∧ (c.selectHost w "ntp" .v4).2.transport.events = [.close]
      ∧ (Coercion.coerce .address "198.51.100.7" r).1
        = .ok (.address ⟨literal, 124⟩)
      ∧ (c.selectHost w "198.51.100.7" .v4).2.state.host
        = some ⟨"198.51.100.7", literal, 124⟩
      ∧ (Coercion.coerce .address "::1" r).1 = .error (.invalidAddress "::1")
      ∧ (c.selectHost w "::1" .v4).1 = .error (.noHost "::1")
      ∧ (Coercion.coerce .address "::1" r₆).1 = .ok (.address ⟨last, 124⟩)
      ∧ (c₆.selectHost w "::1" .v6).2.state.host
        = some ⟨"::1", last, 124⟩ := by
  intro first last w c c₆ r r₆ literal
  have hport : Surroundings.port r = c.defaults.port := rfl
  have hport₆ : Surroundings.port r₆ = c₆.defaults.port := rfl
  obtain ⟨found, hfound, hcoerce, -, -, hturn⟩ :=
    resolvers_agree (c := c) hport "ntp"
  obtain rfl : found = some ⟨first, 124⟩ := hfound.trans (by decide)
  obtain ⟨itself, hitself, hcoerce₄, -, -, hturn₄⟩ :=
    resolvers_agree (c := c) hport "198.51.100.7"
  obtain rfl : itself = some ⟨literal, 124⟩ :=
    hitself.trans (by decide +kernel)
  obtain ⟨absent, hnone, hrefused, hfails, -, -⟩ :=
    resolvers_agree (c := c) hport "::1"
  obtain rfl : absent = none := hnone.trans (by decide +kernel)
  obtain ⟨found₆, hfound₆, hcoerce₆, -, -, hturn₆⟩ :=
    resolvers_agree (c := c₆) hport₆ "::1"
  obtain rfl : found₆ = some ⟨last, 124⟩ :=
    hfound₆.trans (by decide +kernel)
  have hclient := hturn _ rfl
  refine ⟨hport, by rw [hcoerce], congrArg (·.state.host) hclient, ?_,
    by rw [hcoerce₄], congrArg (·.state.host) (hturn₄ _ rfl),
    by rw [hrefused], hfails, by rw [hcoerce₆],
    congrArg (·.state.host) (hturn₆ _ rfl)⟩
  refine (congrArg (·.transport.events) hclient).trans ?_
  decide

end Client

end NtpQuery
