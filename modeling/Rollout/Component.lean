import Rollout.Data.Address
import Rollout.Data.Value

/-!
# Component — what a plan deploys

A component is created from a compiled contract with constructor arguments and linked libraries.
Arguments and libraries may refer to other components, which have to be deployed before
(`Component.dependencies`).
-/

namespace Rollout

/-- A constructor argument as declared. -/
inductive Argument where
  | uint (value : Uint256)
  | address (value : Address)
  /-- The node of a naming path. -/
  | node (path : String)
  /-- The signing account of the run. -/
  | deployer
  /-- The address of another component. -/
  | component (name : String)
  deriving DecidableEq

/-- A library of the contract and the component that provides it. -/
structure LibraryLink where
  library : String
  component : String
  deriving DecidableEq

structure Component where
  name : String
  /-- The contract to create, if its name is not that of the component. -/
  contract : Option String := none
  args : List Argument := []
  libraries : List LibraryLink := []
  deriving DecidableEq

namespace Argument

/-- The component an argument refers to. -/
def component? : Argument → Option String
  | component name => some name
  | _ => none

/-- The text of an argument in listings. -/
def describe : Argument → String
  | uint value => value.describe
  | address value => value.checksummed
  | node path => s!"node({path})"
  | deployer => "deployer"
  | component name => s!"@{name}"

end Argument

namespace Component

def contractName (c : Component) : String :=
  c.contract.getD c.name

/-- The components that arguments and then libraries refer to, in order of declaration. -/
def references (c : Component) : List String :=
  c.args.filterMap Argument.component? ++ c.libraries.map LibraryLink.component

/-- The references without repetitions. -/
def dependencies (c : Component) : List String :=
  c.references.eraseDups

end Component

/-! ## Documents -/

namespace Argument

/-- The argument of a kind. `valueFirst` tells that the value stood before the kind. -/
def ofKind? (d : Dialect) (valueFirst : Bool) (kind : String) (value : Option Value) :
    Option Argument :=
  if kind = "uint" then (Value.required? Value.uint256? value).map uint
  else if kind = "address" then (Value.required? (Value.fixedBytes? d 20) value).map address
  else if kind = "node" then (Value.required? Value.string? value).map node
  else if kind = "component" then (Value.required? Value.string? value).map component
  else if kind = "deployer" then
    match value with
    | none => some deployer
    | some .null => some deployer
    | some (.object []) => if valueFirst then some deployer else none
    | some _ => none
  else none

/-- The kinds of arguments, in order. -/
def kinds : List String :=
  ["uint", "address", "node", "deployer", "component"]

/-- Whether the first of the two fields that occurs is the value. -/
def startsWithValue : List (String × Value) → Bool
  | [] => false
  | (key, _) :: rest => if key = "value" then true else if key = "kind" then false else startsWithValue rest

/-- An argument is a record of its kind and its value, or the sequence of the two. -/
def ofValue? (d : Dialect) : Value → Option Argument
  | .object fields =>
    match Value.named? ["kind", "value"] fields with
    | some [some kind, value] =>
      (kind.name? d kinds).bind fun kind => ofKind? d (startsWithValue fields) kind value
    | _ => none
  | .array (kind :: value :: rest) =>
    if d.exact = true ∧ rest ≠ [] then none
    else (kind.name? d kinds).bind fun kind => ofKind? d false kind (some value)
  | _ => none

def toValue : Argument → Value
  | uint value => .object [("kind", .string "uint"), ("value", .string value.toHex)]
  | address value => .object [("kind", .string "address"), ("value", .string value.toHex)]
  | node path => .object [("kind", .string "node"), ("value", .string path)]
  | deployer => .object [("kind", .string "deployer")]
  | component name => .object [("kind", .string "component"), ("value", .string name)]

end Argument

namespace LibraryLink

def ofValue? (d : Dialect) (v : Value) : Option LibraryLink :=
  match v.record? d ["library", "component"] with
  | some [library, component] => do
    let library ← Value.required? Value.string? library
    let component ← Value.required? Value.string? component
    pure { library, component }
  | _ => none

def toValue (l : LibraryLink) : Value :=
  .object [("library", .string l.library), ("component", .string l.component)]

end LibraryLink

namespace Component

def ofValue? (d : Dialect) (v : Value) : Option Component :=
  match v.record? d ["name", "contract", "args", "libraries"] with
  | some [name, contract, args, libraries] => do
    let name ← Value.required? Value.string? name
    let contract ← Value.default? (Value.optional? Value.string?) none contract
    let args ← Value.default? (Value.list? (Argument.ofValue? d)) [] args
    let libraries ← Value.default? (Value.list? (LibraryLink.ofValue? d)) [] libraries
    pure { name, contract, args, libraries }
  | _ => none

/-- A list as a field, left out when it is empty. -/
def listField {α : Type} (key : String) (write : α → Value) : List α → List (String × Value)
  | [] => []
  | items => [(key, .array (items.map write))]

/-- An optional field, left out when it is absent. -/
def optionalField {α : Type} (key : String) (write : α → Value) : Option α → List (String × Value)
  | none => []
  | some a => [(key, write a)]

def toValue (c : Component) : Value :=
  .object
    (("name", .string c.name) ::
      (optionalField "contract" .string c.contract ++
        (listField "args" Argument.toValue c.args ++
          listField "libraries" LibraryLink.toValue c.libraries)))

end Component

end Rollout
