import Rollout.Principal

/-!
# WiringStep — what a run does in the naming tree once everything is deployed

Each step assigns something, except `awaitPropagation`, which waits until an earlier assignment can
be observed. Principals in a step are resolved when the step is taken.
-/

namespace Rollout

inductive WiringStep where
  /-- Gives `label` under `parent` to `owner`. -/
  | assignSubnode (parent label : String) (owner : Principal)
  /-- Waits until reads show `owner` as the owner of `path`. -/
  | awaitPropagation (path : String) (owner : Principal)
  | bindResolver (path : String) (resolver : Principal)
  /-- Registers who implements an interface of `path` on a resolver. -/
  | bindInterface (resolver : Principal) (path : String) (interfaceId : InterfaceId)
      (implementer : Principal)
  /-- Lets `controller` act on a registrar. -/
  | authorizeController (resource controller : Principal)
  deriving DecidableEq

namespace WiringStep

/-- The principals of a step, in the order they are resolved. -/
def principals : WiringStep → List Principal
  | assignSubnode _ _ owner => [owner]
  | awaitPropagation _ owner => [owner]
  | bindResolver _ resolver => [resolver]
  | bindInterface resolver _ _ implementer => [resolver, implementer]
  | authorizeController resource controller => [resource, controller]

def describe : WiringStep → String
  | assignSubnode parent label owner =>
    let place := if parent = "" then "<root>" else parent
    s!"assign {label} under {place} to {owner}"
  | awaitPropagation path owner => s!"await ownership of {path} by {owner}"
  | bindResolver path resolver => s!"bind resolver of {path} to {resolver}"
  | bindInterface resolver path interfaceId implementer =>
    s!"bind interface {interfaceId} of {path} on {resolver} to {implementer}"
  | authorizeController resource controller => s!"authorize {controller} as controller of {resource}"

instance : ToString WiringStep := ⟨describe⟩

/-! ## Documents -/

/-- The tags of steps, in order. -/
def tags : List String :=
  ["assign_subnode", "await_propagation", "bind_resolver", "bind_interface", "authorize_controller"]

/-- The tag of a step, given as text or by its place. -/
def tag? (d : Dialect) : Value → Option String
  | .string tag => some tag
  | v => v.placed? d tags

/-- The names of a step's fields, by its tag. -/
def fieldNames? (tag : String) : Option (List String) :=
  if tag = "assign_subnode" then some ["parent", "label", "owner"]
  else if tag = "await_propagation" then some ["path", "owner"]
  else if tag = "bind_resolver" then some ["path", "resolver"]
  else if tag = "bind_interface" then some ["resolver", "path", "interface_id", "implementer"]
  else if tag = "authorize_controller" then some ["resource", "controller"]
  else none

/-- The step of a tag, from the values of its fields. -/
def ofFields? (d : Dialect) (tag : String) (entries : List (Option Value)) : Option WiringStep :=
  let principal := Value.required? Principal.ofValue?
  let text := Value.required? Value.string?
  match entries with
  | [parent, label, owner] =>
    if tag = "assign_subnode" then do
      pure (assignSubnode (← Value.default? Value.string? "" parent) (← text label) (← principal owner))
    else none
  | [first, second] =>
    if tag = "await_propagation" then do
      pure (awaitPropagation (← text first) (← principal second))
    else if tag = "bind_resolver" then do
      pure (bindResolver (← text first) (← principal second))
    else if tag = "authorize_controller" then do
      pure (authorizeController (← principal first) (← principal second))
    else none
  | [resolver, path, interfaceId, implementer] =>
    if tag = "bind_interface" then do
      pure (bindInterface (← principal resolver) (← text path)
        (← Value.required? (Value.fixedBytes? d 4) interfaceId) (← principal implementer))
    else none
  | _ => none

/-- A step is a record with its tag, or the sequence of its tag and its fields. -/
def ofValue? (d : Dialect) : Value → Option WiringStep
  | .object fields =>
    match Value.field? fields "step" with
    | some (some tag) => do
      let tag ← tag? d tag
      let names ← fieldNames? tag
      let entries ← Value.named? names fields
      ofFields? d tag entries
    | _ => none
  | .array (tag :: items) => do
    let tag ← tag? d tag
    let names ← fieldNames? tag
    let entries ← Value.positional? true names items
    ofFields? d tag entries
  | _ => none

def toValue : WiringStep → Value
  | assignSubnode parent label owner =>
    .object [("step", .string "assign_subnode"), ("parent", .string parent),
      ("label", .string label), ("owner", owner.toValue)]
  | awaitPropagation path owner =>
    .object [("step", .string "await_propagation"), ("path", .string path), ("owner", owner.toValue)]
  | bindResolver path resolver =>
    .object [("step", .string "bind_resolver"), ("path", .string path), ("resolver", resolver.toValue)]
  | bindInterface resolver path interfaceId implementer =>
    .object [("step", .string "bind_interface"), ("resolver", resolver.toValue),
      ("path", .string path), ("interface_id", .string interfaceId.toHex),
      ("implementer", implementer.toValue)]
  | authorizeController resource controller =>
    .object [("step", .string "authorize_controller"), ("resource", resource.toValue),
      ("controller", controller.toValue)]

end WiringStep

end Rollout
