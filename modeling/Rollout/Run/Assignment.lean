import Rollout.Run.Deployment

/-!
# Run/Assignment — owners, resolvers, interfaces and controllers

Each assignment is one call, sent as the deployer; the ledger decides whether the deployer may. With
the check beforehand, the owner of the node is read first and nothing is sent without authority. A
confirmed assignment leaves a record of the path it is for and of the node that it changes.
-/

namespace Rollout

inductive AssignmentRole where
  | ownership
  | resolver
  | interface
  | controller
  deriving DecidableEq

/-- A confirmed assignment. -/
structure Assignment where
  role : AssignmentRole
  path : Option String
  node : Option Digest
  /-- The contract that was called. -/
  target : Address
  /-- The owner, resolver, implementer or controller. -/
  assigned : Address
  transaction : Digest
  block : Nat
  deriving DecidableEq

namespace AssignmentRole

def toText : AssignmentRole → String
  | ownership => "ownership"
  | resolver => "resolver"
  | interface => "interface"
  | controller => "controller"

def ofText? (text : String) : Option AssignmentRole :=
  if text = "ownership" then some ownership
  else if text = "resolver" then some resolver
  else if text = "interface" then some interface
  else if text = "controller" then some controller
  else none

end AssignmentRole

namespace Assignment

def toValue (a : Assignment) : Value :=
  .object
    (("role", .string a.role.toText) ::
      (Component.optionalField "path" .string a.path ++
        (Component.optionalField "node" (fun n => .string n.toHex) a.node ++
          [("target", .string a.target.toHex), ("assigned", .string a.assigned.toHex),
            ("tx_hash", .string a.transaction.toHex), ("block_number", .unsigned a.block)])))

end Assignment

namespace Run

variable {σ : Type}

/-- Where and how assignments are made. -/
structure Desk where
  /-- The naming registry. -/
  registry : Address
  timeoutSecs : Nat
  /-- Whether ownership is read before every submission. -/
  precheck : Bool

/-- The node that a call changes something about. -/
def affectedNode : Call → Option Node
  | .setSubnodeOwner node label _ => some (Naming.subnode node label)
  | .setResolver node _ => some node
  | .setInterface node _ _ => some node
  | .addController _ => none

/-- With the check beforehand, fails unless reads show that the deployer owns the node. -/
def ensureAuthority (l : Ledger σ) (d : Desk) (name : String) (node : Node) : Action σ Unit :=
  if d.precheck then fun s =>
    match s.owner l d.registry node with
    | (.ok owner, s) =>
      if owner = l.deployer then (.ok (), s)
      else (.error (.assignmentRejected name d.registry (.notOwner node owner)), s)
    | (.error error, s) => (.error (.ledger error), s)
  else pure ()

/-- How a refused call fails. -/
def callError (name : String) (target : Address) : LedgerError → DeployError
  | .transport causes => .assignmentRejected name target (.refused causes)
  | .artifact contract fault => .ledger (.artifact contract fault)

/-- The record of a call, if its receipt tells of success. -/
def recordOf (target : Address) (call : Call) (role : AssignmentRole) (path : Option String)
    (assigned : Address) (receipt : Receipt) : Except DeployError Assignment :=
  if receipt.success then
    .ok { role, path, node := affectedNode call, target, assigned,
          transaction := receipt.transaction, block := receipt.block }
  else .error (.assignmentRejected call.name target (.reverted receipt.revertReason))

/-- Sends a call and waits for it. -/
def execute (l : Ledger σ) (d : Desk) (target : Address) (call : Call) (role : AssignmentRole)
    (path : Option String) (assigned : Address) : Action σ Assignment := do
  let receipt ← transact l d.timeoutSecs (.call call) (.call target call) (callError call.name target)
  ofExcept (recordOf target call role path assigned receipt)

/-- Makes `owner` the owner of `label` under `parent`. -/
def assignSubnode (l : Ledger σ) (d : Desk) (parent label : String) (owner : Address) :
    Action σ Assignment := do
  let node := Naming.node parent
  ensureAuthority l d "setSubnodeOwner" node
  execute l d d.registry (.setSubnodeOwner node (Naming.labelHash label) owner) .ownership
    (some (Naming.join parent label)) owner

def bindResolver (l : Ledger σ) (d : Desk) (path : String) (resolver : Address) :
    Action σ Assignment := do
  let node := Naming.node path
  ensureAuthority l d "setResolver" node
  execute l d d.registry (.setResolver node resolver) .resolver (some path) resolver

/-- Registers the implementer of an interface of `path` on a resolver. -/
def bindInterface (l : Ledger σ) (d : Desk) (resolver : Address) (path : String)
    (interfaceId : InterfaceId) (implementer : Address) : Action σ Assignment := do
  let node := Naming.node path
  ensureAuthority l d "setInterface" node
  execute l d resolver (.setInterface node interfaceId implementer) .interface (some path) implementer

def authorizeController (l : Ledger σ) (d : Desk) (resource controller : Address) :
    Action σ Assignment :=
  execute l d resource (.addController controller) .controller none controller

end Run

end Rollout
