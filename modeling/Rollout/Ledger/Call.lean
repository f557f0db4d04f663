import Rollout.Data.Address
import Rollout.Data.Uint256

/-!
# Ledger/Call — assignments as contract calls, and their call data

A call is written as the first four bytes of the digest of its signature, followed by one word of
thirty-two bytes per parameter. Numbers and addresses stand at the end of their word, four-byte
identifiers at the start, and zeros fill the rest.
-/

namespace Rollout

/-! ## Words -/

/-- A value that fills one word of call data. -/
inductive AbiValue where
  | uint (value : Uint256)
  | address (value : Address)
  | bytes32 (value : Digest)
  | bytes4 (value : InterfaceId)
  deriving DecidableEq

namespace AbiValue

/-- The word of a value. -/
def word : AbiValue → List UInt8
  | uint value => bigEndian 32 value.toNat
  | address value => List.replicate 12 0 ++ value.toList
  | bytes32 value => value.toList
  | bytes4 value => value.toList ++ List.replicate 28 0

theorem length_word : ∀ value : AbiValue, value.word.length = 32
  | uint value => length_bigEndian 32 value.toNat
  | address value => by simp [word, value.length_toList]
  | bytes32 value => value.length_toList
  | bytes4 value => by simp [word, value.length_toList]

/-- The words of several values, one after the other. -/
def encode (values : List AbiValue) : List UInt8 :=
  values.flatMap word

def address? : AbiValue → Option Address
  | address value => some value
  | _ => none

end AbiValue

/-! ## Calls -/

/-- What a wiring step asks of a contract. -/
inductive Call where
  | setSubnodeOwner (node label : Digest) (owner : Address)
  | setResolver (node : Digest) (resolver : Address)
  | setInterface (node : Digest) (interfaceId : InterfaceId) (implementer : Address)
  | addController (controller : Address)
  deriving DecidableEq

namespace Call

def name : Call → String
  | setSubnodeOwner .. => "setSubnodeOwner"
  | setResolver .. => "setResolver"
  | setInterface .. => "setInterface"
  | addController .. => "addController"

/-- The name with the types of the parameters. -/
def signature : Call → String
  | setSubnodeOwner .. => "setSubnodeOwner(bytes32,bytes32,address)"
  | setResolver .. => "setResolver(bytes32,address)"
  | setInterface .. => "setInterface(bytes32,bytes4,address)"
  | addController .. => "addController(address)"

def describe : Call → String
  | setSubnodeOwner node label owner => s!"setSubnodeOwner({node}, {label}, {owner.checksummed})"
  | setResolver node resolver => s!"setResolver({node}, {resolver.checksummed})"
  | setInterface node interfaceId implementer =>
    s!"setInterface({node}, {interfaceId}, {implementer.checksummed})"
  | addController controller => s!"addController({controller.checksummed})"

def parameters : Call → List AbiValue
  | setSubnodeOwner node label owner => [.bytes32 node, .bytes32 label, .address owner]
  | setResolver node resolver => [.bytes32 node, .address resolver]
  | setInterface node interfaceId implementer =>
    [.bytes32 node, .bytes4 interfaceId, .address implementer]
  | addController controller => [.address controller]

/-- The first four bytes of the digest of a signature. -/
def selector (signature : String) : List UInt8 :=
  (Keccak.digest (Hex.bytesOf signature)).toList.take 4

/-- Call data of any function whose parameters fill one word each. -/
def callData (signature : String) (parameters : List AbiValue) : List UInt8 :=
  selector signature ++ AbiValue.encode parameters

def encode (c : Call) : List UInt8 :=
  callData c.signature c.parameters

end Call

end Rollout
