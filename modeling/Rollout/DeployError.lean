import Rollout.Ledger.Call
import Rollout.WiringStep

/-!
# DeployError — everything that ends a run

An error is its cause; `DeployError.message` is the text a person reads. Errors that leave a
submitted transaction behind whose outcome is unknown give its hash (`DeployError.pending`).
-/

namespace Rollout

/-- An operation that a run waits for. -/
inductive Operation where
  | creation (name : String)
  | call (c : Call)
  /-- Until reads show `owner` as the owner of `node`. -/
  | propagation (node : Digest) (owner : Address)
  deriving DecidableEq

/-- What is wrong with a plan besides its dependencies. -/
inductive PlanFault where
  | declaredTwice (name : String)
  | unknownRegistry (name : String)
  | missingRegistry
  | unknownComponent (step : WiringStep) (name : String)
  deriving DecidableEq

/-- What is wrong with a compiled contract. -/
inductive ArtifactFault where
  | unlinkedLibrary (library : String)
  | badReference (library : String) (start : Nat)
  | badHex (fault : Hex.Fault)
  | notFound (root : String)
  deriving DecidableEq

/-- An error of a ledger: a transport failure with its causes, outermost first, or a contract that
cannot be submitted. -/
inductive LedgerError where
  | transport (causes : List String)
  | artifact (contract : String) (fault : ArtifactFault)
  deriving DecidableEq

/-- Why a creation that was sent made no component. -/
inductive CreationFault where
  | refused (causes : List String)
  | reverted (reason : Option String)
  | noAddress
  deriving DecidableEq

/-- Why an assignment did not happen. -/
inductive AssignmentFault where
  | refused (causes : List String)
  | reverted (reason : Option String)
  | notOwner (node : Digest) (owner : Address)
  deriving DecidableEq

inductive DeployError where
  | duplicateName (name : String)
  | unresolvedDependency (name : String)
  | unknownDependency (component dependency : String)
  | dependencyCycle (members : List String)
  | invalidPlan (fault : PlanFault)
  | deploymentFailed (name : String) (fault : CreationFault)
  /-- No confirmation within `seconds`; the hash is there if something was submitted. -/
  | confirmationTimeout (operation : Operation) (seconds : Nat) (transaction : Option Digest)
      (lastError : Option LedgerError)
  | assignmentRejected (name : String) (target : Address) (fault : AssignmentFault)
  | cancelled (operation : Operation) (transaction : Option Digest)
  | ledger (error : LedgerError)
  deriving DecidableEq

/-! ## Texts -/

namespace Operation

def describe : Operation → String
  | creation name => s!"creation of {name}"
  | call c => c.describe
  | propagation node owner => s!"propagation of owner of {node} to be {owner.checksummed}"

end Operation

namespace PlanFault

def message : PlanFault → String
  | declaredTwice name => s!"component `{name}` is declared twice"
  | unknownRegistry name => s!"naming registry `{name}` is not a component of the plan"
  | missingRegistry => "wiring steps require a naming registry"
  | unknownComponent step name => s!"step `{step}` references unknown component `{name}`"

end PlanFault

namespace ArtifactFault

def hexMessage : Hex.Fault → String
  | .odd => "Odd number of digits"
  | .invalid byte position =>
    "Invalid character " ++ Text.quoteByte byte ++ " at position " ++ toString position

def message : ArtifactFault → String
  | unlinkedLibrary library => s!"library `{library}` is not linked"
  | badReference library start => s!"invalid link reference for `{library}` at byte {start}"
  | badHex fault => "bytecode is not valid hex: " ++ hexMessage fault
  | notFound root => s!"no artifact found under {root}"

end ArtifactFault

/-- Causes on one line, outermost first. -/
def joinCauses (causes : List String) : String :=
  String.intercalate ": " causes

namespace LedgerError

def message : LedgerError → String
  | transport causes => "ledger transport error: " ++ joinCauses causes
  | artifact contract fault => s!"artifact `{contract}`: " ++ fault.message

end LedgerError

def CreationFault.message : CreationFault → String
  | refused causes => joinCauses causes
  | reverted reason => reason.getD "creation reverted"
  | noAddress => "receipt carries no contract address"

def AssignmentFault.message : AssignmentFault → String
  | refused causes => joinCauses causes
  | reverted reason => reason.getD "reverted"
  | notOwner node owner =>
    s!"sender is not the owner of node {node} (owner is {owner.checksummed})"

namespace DeployError

/-- Whole seconds, with the unit that zero takes. -/
def secondsText (seconds : Nat) : String :=
  if seconds = 0 then "0ns" else s!"{seconds}s"

def pendingText : Option Digest → String
  | some transaction => s!", transaction {transaction} may still land"
  | none => ""

def lastErrorText : Option LedgerError → String
  | some error => " (last read error: " ++ error.message ++ ")"
  | none => ""

def message : DeployError → String
  | duplicateName name => s!"component `{name}` is already present in the resource registry"
  | unresolvedDependency name => s!"dependency `{name}` has not been deployed yet"
  | unknownDependency component dependency =>
    s!"component `{component}` depends on `{dependency}`, which is not part of the plan"
  | dependencyCycle members =>
    "dependency cycle between components: " ++ String.intercalate ", " members
  | invalidPlan fault => "invalid deployment plan: " ++ fault.message
  | deploymentFailed name fault => s!"deployment of `{name}` failed: " ++ fault.message
  | confirmationTimeout operation seconds transaction lastError =>
    "no confirmation for " ++ operation.describe ++ " after " ++ secondsText seconds ++
      pendingText transaction ++ lastErrorText lastError
  | assignmentRejected name target fault =>
    s!"assignment `{name}` rejected on {target.checksummed}: " ++ fault.message
  | cancelled operation transaction =>
    "run cancelled while waiting for " ++ operation.describe ++ pendingText transaction
  | ledger error => error.message

/-- The hash of a submitted transaction whose outcome is unknown. -/
def pending : DeployError → Option Digest
  | confirmationTimeout _ _ transaction _ => transaction
  | cancelled _ transaction => transaction
  | _ => none

end DeployError

end Rollout
