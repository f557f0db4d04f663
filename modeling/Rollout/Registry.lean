import Rollout.DeployError

/-!
# Registry — what has been deployed so far

The registry lists deployed components in the order they were produced. A name enters it once:
`Registry.put` refuses a name that is there already.
-/

namespace Rollout

/-- A component that exists on the ledger, with the transaction and block that created it. -/
structure Resource where
  name : String
  address : Address
  transaction : Digest
  block : Nat
  deriving DecidableEq

structure Registry where
  resources : List Resource := []
  deriving DecidableEq

namespace Registry

def empty : Registry := {}

def find? (r : Registry) (name : String) : Option Resource :=
  r.resources.find? fun resource => resource.name == name

def contains (r : Registry) (name : String) : Bool :=
  r.resources.any fun resource => resource.name == name

def names (r : Registry) : List String :=
  r.resources.map Resource.name

def get (r : Registry) (name : String) : Except DeployError Resource :=
  match r.find? name with
  | some resource => .ok resource
  | none => .error (.unresolvedDependency name)

def address (r : Registry) (name : String) : Except DeployError Address :=
  match r.find? name with
  | some resource => .ok resource.address
  | none => .error (.unresolvedDependency name)

def put (r : Registry) (resource : Resource) : Except DeployError Registry :=
  if r.contains resource.name then .error (.duplicateName resource.name)
  else .ok ⟨r.resources ++ [resource]⟩

end Registry

/-! ## Documents -/

namespace Resource

/-- The block and the transaction of a confirmation. -/
def ofConfirmed? (d : Dialect) (entries : List (Option Value)) : Option (Digest × Nat) :=
  match entries with
  | [transaction, block] => do
    pure (← Value.required? (Value.fixedBytes? d 32) transaction, ← Value.required? Value.word? block)
  | _ => none

/-- A confirmation is a record with its tag, or the sequence of its tag and its fields. -/
def ofStatus? (d : Dialect) : Value → Option (Digest × Nat)
  | .object fields =>
    match Value.field? fields "status" with
    | some (some (.string "confirmed")) => do
      ofConfirmed? d (← Value.named? ["tx_hash", "block_number"] fields)
    | _ => none
  | .array (.string "confirmed" :: items) => do
    ofConfirmed? d (← Value.positional? true ["tx_hash", "block_number"] items)
  | _ => none

def ofValue? (d : Dialect) (v : Value) : Option Resource :=
  match v.record? d ["name", "address", "status"] with
  | some [name, address, status] => do
    let name ← Value.required? Value.string? name
    let address ← Value.required? (Value.fixedBytes? d 20) address
    let (transaction, block) ← Value.required? (ofStatus? d) status
    pure { name, address, transaction, block }
  | _ => none

def toValue (r : Resource) : Value :=
  .object [("name", .string r.name), ("address", .string r.address.toHex),
    ("status", .object [("status", .string "confirmed"), ("tx_hash", .string r.transaction.toHex),
      ("block_number", .unsigned r.block)])]

end Resource

namespace Registry

/-- A registry is read as it stands, repeated names included. -/
def ofValue? (d : Dialect) (v : Value) : Option Registry :=
  match v.record? d ["resources"] with
  | some [resources] =>
    (Value.required? (Value.list? (Resource.ofValue? d)) resources).map Registry.mk
  | _ => none

def toValue (r : Registry) : Value :=
  .object [("resources", .array (r.resources.map Resource.toValue))]

end Registry

end Rollout
