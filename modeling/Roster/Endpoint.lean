import Roster.Address.Reader
import Roster.Address.Writer

/-!
# Endpoints and replica identities

An endpoint, the system's `HostEndpoint`, names one running process: the
address and port it is bound to, and an incarnation that is larger after every
restart.  Two endpoints on the same host differ only in their incarnation; the
later one supersedes the earlier.

An endpoint has a text form, its key, which is read back from the right.

A `ReplicaId` names one process's copy of the replicated documents, and the
origin of the gossip that the process creates.
-/

namespace Roster

/-- One process on one address, at one incarnation. -/
structure Endpoint where
  address : String
  port : UInt16
  incarnation : UInt64
  deriving DecidableEq, Hashable, Inhabited, Repr

/-- Endpoints are ordered by address, then port, then incarnation. -/
instance : Ord Endpoint where
  compare :=
    compareLex (compareOn Endpoint.address)
      (compareLex (compareOn Endpoint.port) (compareOn Endpoint.incarnation))

instance : Std.TransOrd Endpoint :=
  inferInstanceAs
    (Std.TransCmp
      (compareLex (compareOn Endpoint.address)
        (compareLex (compareOn Endpoint.port) (compareOn Endpoint.incarnation))))

instance : Std.LawfulEqOrd Endpoint where
  eq_of_compare := by
    intro left right same
    obtain ⟨sameAddress, rest⟩ := Ordering.then_eq_eq.mp same
    obtain ⟨samePort, sameIncarnation⟩ := Ordering.then_eq_eq.mp rest
    cases left
    cases right
    simp only [Endpoint.mk.injEq]
    exact
      ⟨Std.LawfulEqCmp.eq_of_compare sameAddress,
        Std.LawfulEqCmp.eq_of_compare samePort,
        Std.LawfulEqCmp.eq_of_compare sameIncarnation⟩

namespace Endpoint

/-- Address and port; an address with a colon is enclosed in brackets. -/
def hostChars (endpoint : Endpoint) : List Char :=
  let address := endpoint.address.toList
  let enclosed := if ':' ∈ address then ['['] ++ address ++ [']'] else address
  enclosed ++ [':'] ++ Text.decimal endpoint.port.toNat

/-- The key of an endpoint: address, port and incarnation. -/
def keyChars (endpoint : Endpoint) : List Char :=
  endpoint.hostChars ++ ['#'] ++ Text.decimal endpoint.incarnation.toNat

def hostPort (endpoint : Endpoint) : String :=
  String.ofList endpoint.hostChars

def key (endpoint : Endpoint) : String :=
  String.ofList endpoint.keyChars

/-- Read a key from the right: the incarnation follows the last `#`, the port
the last colon before it, and brackets around the address are removed. -/
def ofKeyChars? (text : List Char) : Option Endpoint := do
  let (host, incarnation) ← Text.splitLast '#' text
  let incarnation ← Text.readUnsigned UInt64.size incarnation
  let (address, port) ← Text.splitLast ':' host
  let port ← Text.readUnsigned UInt16.size port
  let address := Text.dropEnd (· = ']') (address.dropWhile (· = '['))
  if address.isEmpty then
    none
  else
    some
      { address := String.ofList address
        port := UInt16.ofNat port
        incarnation := UInt64.ofNat incarnation }

def ofKey? (key : String) : Option Endpoint :=
  ofKeyChars? key.toList

/-- The address to dial, if the address of the endpoint is numeric. -/
def socketAddress? (endpoint : Endpoint) : Option SocketAddress :=
  (IpAddress.ofString? endpoint.address).map fun ip =>
    { ip, port := endpoint.port }

def sameHost (left right : Endpoint) : Bool :=
  left.port == right.port && left.address == right.address

/-- A later incarnation on the same host. -/
def supersedes (left right : Endpoint) : Bool :=
  left.sameHost right && right.incarnation < left.incarnation

def atIncarnation (endpoint : Endpoint) (incarnation : UInt64) : Endpoint :=
  { endpoint with incarnation }

inductive Fault where
  | invalidKey (key : String)
  | invalidAddress (address : String)
  | unresolvable (endpoint : Endpoint)
  deriving DecidableEq, Repr

def Fault.message : Fault → String
  | .invalidKey key => "Invalid endpoint key: " ++ key
  | .invalidAddress address => "Invalid address: " ++ address
  | .unresolvable endpoint =>
      "Unresolvable address for " ++ endpoint.key ++ ": Invalid address: " ++
        endpoint.address

/-- The incarnation drawn when `offered` is the next one of the clock: the
first that is at least `least`. -/
def nextIncarnation (offered least : UInt64) : UInt64 :=
  max offered least

end Endpoint

/-- The identity of one process's copy of the documents. -/
structure ReplicaId where
  value : UInt64
  deriving DecidableEq, Hashable, Inhabited, Repr

instance : Ord ReplicaId where
  compare := compareOn ReplicaId.value

instance : Std.TransOrd ReplicaId :=
  inferInstanceAs (Std.TransCmp (compareOn ReplicaId.value))

instance : Std.LawfulEqOrd ReplicaId where
  eq_of_compare := by
    intro left right same
    have sameOrder : compare left.value right.value = .eq := same
    have sameValue := Std.LawfulEqCmp.eq_of_compare sameOrder
    cases left
    cases right
    exact congrArg ReplicaId.mk sameValue

def ReplicaId.toText (replica : ReplicaId) : String :=
  String.ofList (Text.hex 16 replica.value.toNat)

end Roster
