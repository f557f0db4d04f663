import Rollout.Plan
import Rollout.Run.Assignment

/-!
# Run/Orchestration — a whole rollout, step by step

`Run.run` deploys the components of a plan in order and then takes its wiring steps in order. It
stops at the first error and takes nothing back: the failure tells where the run was, what was the
last thing completed, and everything confirmed so far.
-/

namespace Rollout

/-- Where a run is. Positions count from zero. -/
inductive RunState where
  | idle
  | deploying (index : Nat)
  | wiring (index : Nat)
  | complete
  | failed
  deriving DecidableEq

namespace RunState

def describe : RunState → String
  | idle => "idle"
  | deploying index => s!"deploying component #{index}"
  | wiring index => s!"wiring step #{index}"
  | complete => "complete"
  | failed => "failed"

def toValue : RunState → Value
  | idle => .string "idle"
  | deploying index => .object [("deploying", .unsigned index)]
  | wiring index => .object [("wiring", .unsigned index)]
  | complete => .string "complete"
  | failed => .string "failed"

end RunState

/-- Everything a run produced, in order. -/
structure Report where
  state : RunState
  resources : List Resource
  assignments : List Assignment
  deriving DecidableEq

def Report.toValue (r : Report) : Value :=
  .object [("state", r.state.toValue), ("resources", .array (r.resources.map Resource.toValue)),
    ("assignments", .array (r.assignments.map Assignment.toValue))]

/-- A run that stopped at an error. -/
structure Failure where
  error : DeployError
  failedStep : RunState
  lastCompleted : Option String
  report : Report
  deriving DecidableEq

namespace Failure

/-- The hash of a submitted transaction whose outcome is unknown. -/
def pending (f : Failure) : Option Digest :=
  f.error.pending

def message (f : Failure) : String :=
  "run failed while " ++ f.failedStep.describe ++ " (" ++ f.lastCompleted.getD "nothing completed" ++ ")"

end Failure

structure Settings where
  confirmation : ConfirmationPolicy := {}
  propagation : PropagationPolicy := {}
  precheck : Bool := false
  deriving DecidableEq

namespace Run

variable {σ : Type}

/-- How far a run has come. -/
structure Progress where
  registry : Registry
  assignments : List Assignment := []
  lastCompleted : Option String := none

namespace Progress

def fail (p : Progress) (step : RunState) (error : DeployError) : Failure :=
  { error, failedStep := step, lastCompleted := p.lastCompleted,
    report := ⟨.failed, p.registry.resources, p.assignments⟩ }

def report (p : Progress) : Report :=
  ⟨.complete, p.registry.resources, p.assignments⟩

end Progress

/-- Takes one thing after the other until one fails. The first has the given index. -/
def inOrder {α : Type}
    (take : Nat → α → Progress → Session σ → Except Failure Progress × Session σ) :
    Nat → List α → Progress → Session σ → Except Failure Progress × Session σ
  | _, [], progress, s => (.ok progress, s)
  | index, a :: rest, progress, s =>
    match take index a progress s with
    | (.ok progress, s) => inOrder take (index + 1) rest progress s
    | (.error failure, s) => (.error failure, s)

/-- Deploys the component with the given index. -/
def deployNext (l : Ledger σ) (settings : Settings) (index : Nat) (c : Component)
    (progress : Progress) (s : Session σ) : Except Failure Progress × Session σ :=
  match deploy l settings.confirmation.timeoutSecs c progress.registry s with
  | (.ok (_, registry), s) =>
    (.ok { progress with registry, lastCompleted := some s!"deployed {c.name}" }, s)
  | (.error error, s) => (.error (progress.fail (.deploying index) error), s)

/-- The address of a principal. -/
def resolvePrincipal (deployer : Address) (registry : Registry) :
    Principal → Except DeployError Address
  | .deployer => .ok deployer
  | .component name => registry.address name
  | .address a => .ok a

/-- Takes one wiring step; a step that only waits leaves no record. -/
def takeStep (l : Ledger σ) (d : Desk) (policy : PropagationPolicy) (registry : Registry) :
    WiringStep → Action σ (Option Assignment)
  | .assignSubnode parent label owner => do
    let owner ← ofExcept (resolvePrincipal l.deployer registry owner)
    some <$> assignSubnode l d parent label owner
  | .awaitPropagation path owner => do
    let owner ← ofExcept (resolvePrincipal l.deployer registry owner)
    awaitPropagation l policy { registry := d.registry, node := Naming.node path, owner }
    pure none
  | .bindResolver path resolver => do
    let resolver ← ofExcept (resolvePrincipal l.deployer registry resolver)
    some <$> bindResolver l d path resolver
  | .bindInterface resolver path interfaceId implementer => do
    let resolver ← ofExcept (resolvePrincipal l.deployer registry resolver)
    let implementer ← ofExcept (resolvePrincipal l.deployer registry implementer)
    some <$> bindInterface l d resolver path interfaceId implementer
  | .authorizeController resource controller => do
    let resource ← ofExcept (resolvePrincipal l.deployer registry resource)
    let controller ← ofExcept (resolvePrincipal l.deployer registry controller)
    some <$> authorizeController l d resource controller

/-- Takes the wiring step with the given index. -/
def wireNext (l : Ledger σ) (d : Desk) (policy : PropagationPolicy) (index : Nat) (step : WiringStep)
    (progress : Progress) (s : Session σ) : Except Failure Progress × Session σ :=
  match takeStep l d policy progress.registry step s with
  | (.ok made, s) =>
    (.ok { progress with
        assignments := progress.assignments ++ made.toList
        lastCompleted := some step.describe }, s)
  | (.error error, s) => (.error (progress.fail (.wiring index) error), s)

/-- The state of a run that has deployed so many components and taken no wiring step. -/
def stateAfterDeploying : Nat → RunState
  | 0 => .idle
  | count + 1 => .deploying count

/-- Wires a plan whose components are deployed. -/
def wire (l : Ledger σ) (plan : Plan) (settings : Settings) (progress : Progress) (s : Session σ) :
    Except Failure Progress × Session σ :=
  match plan.registry with
  | none => (.ok progress, s)
  | some name =>
    match progress.registry.address name with
    | .error error => (.error (progress.fail (stateAfterDeploying plan.components.length) error), s)
    | .ok registry =>
      inOrder (wireNext l ⟨registry, settings.confirmation.timeoutSecs, settings.precheck⟩
        settings.propagation) 0 plan.wiring progress s

/-- Runs a plan, starting from the resources of an earlier run. -/
def run (l : Ledger σ) (plan : Plan) (settings : Settings) (registry : Registry) (s : Session σ) :
    Except Failure Report × Session σ :=
  match inOrder (deployNext l settings) 0 plan.components { registry } s with
  | (.error failure, s) => (.error failure, s)
  | (.ok progress, s) =>
    match wire l plan settings progress s with
    | (.error failure, s) => (.error failure, s)
    | (.ok progress, s) => (.ok progress.report, s)

end Run

end Rollout
