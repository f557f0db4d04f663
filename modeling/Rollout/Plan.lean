import Rollout.Plan.Order

/-!
# Plan — a checked rollout

A plan holds its components in deployment order, the component that serves as the naming registry,
and the wiring steps. `Plan.make` is the only check: it sorts the components and makes sure that
every name a step refers to is one of them.
-/

namespace Rollout

structure Plan where
  components : List Component
  /-- The component that holds the owners of nodes. -/
  registry : Option String
  wiring : List WiringStep
  deriving DecidableEq

namespace Plan

def contains (components : List Component) (name : String) : Bool :=
  components.any fun c => c.name == name

/-- The first step that refers to something else than a component, and what it refers to. -/
def firstDangling? (components : List Component) : List WiringStep → Option (WiringStep × String)
  | [] => none
  | step :: rest =>
    match (step.principals.filterMap Principal.component?).find? (!contains components ·) with
    | some name => some (step, name)
    | none => firstDangling? components rest

/-- Wiring needs a registry, and a registry has to be a component. -/
def registryFault? (components : List Component) (registry : Option String)
    (wiring : List WiringStep) : Option PlanFault :=
  match registry, wiring with
  | some name, _ => if contains components name then none else some (.unknownRegistry name)
  | none, [] => none
  | none, _ :: _ => some .missingRegistry

def make (components : List Component) (registry : Option String) (wiring : List WiringStep) :
    Except DeployError Plan :=
  match order components with
  | .error error => .error error
  | .ok sorted =>
    match registryFault? sorted registry wiring with
    | some fault => .error (.invalidPlan fault)
    | none =>
      match firstDangling? sorted wiring with
      | some (step, name) => .error (.invalidPlan (.unknownComponent step name))
      | none => .ok ⟨sorted, registry, wiring⟩

end Plan

end Rollout
