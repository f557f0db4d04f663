import Rollout.Component
import Rollout.Naming.Path
import Rollout.Registry
import Rollout.Run.Waiting

/-!
# Run/Deployment — creating one component

`Run.deploy` resolves what a component refers to, submits one creation, waits for it, and records
the new contract. A creation is never sent twice. Whatever fails before the submission leaves the
ledger untouched, and a contract that was created is always recorded.
-/

namespace Rollout.Run

variable {σ : Type}

/-- The value of a declared argument. -/
def resolveArgument (registry : Registry) (deployer : Address) : Argument → Except DeployError AbiValue
  | .uint value => .ok (.uint value)
  | .address value => .ok (.address value)
  | .node path => .ok (.bytes32 (Naming.node path))
  | .deployer => .ok (.address deployer)
  | .component name => (registry.address name).map .address

def resolveArguments (registry : Registry) (deployer : Address) (args : List Argument) :
    Except DeployError (List AbiValue) :=
  args.mapM (resolveArgument registry deployer)

def resolveLibraries (registry : Registry) (libraries : List LibraryLink) :
    Except DeployError (List (String × Address)) :=
  libraries.mapM fun link => (registry.address link.component).map fun a => (link.library, a)

/-- The creation of a component, once everything it refers to is in the registry. -/
def creationOf (registry : Registry) (deployer : Address) (c : Component) :
    Except DeployError Creation := do
  let args ← resolveArguments registry deployer c.args
  let libraries ← resolveLibraries registry c.libraries
  pure { name := c.name, contract := c.contractName, args, libraries }

/-- The contract that a receipt of a creation tells of. -/
def createdAddress (name : String) (receipt : Receipt) : Except DeployError Address :=
  if receipt.success then
    match receipt.contractAddress with
    | some address => .ok address
    | none => .error (.deploymentFailed name .noAddress)
  else .error (.deploymentFailed name (.reverted receipt.revertReason))

/-- How a refused creation fails. -/
def creationError (name : String) : LedgerError → DeployError
  | .transport causes => .deploymentFailed name (.refused causes)
  | .artifact contract fault => .ledger (.artifact contract fault)

/-- A result that needs no session. -/
def ofExcept {α : Type} (result : Except DeployError α) : Action σ α := fun s => (result, s)

/-- Hands a request to the ledger, as a step that fails with the error made of a refusal. -/
def submit (l : Ledger σ) (request : Request) (refusal : LedgerError → DeployError) :
    Action σ Digest := fun s =>
  match s.submit l request with
  | (answer, s) => (answer.mapError refusal, s)

/-- Submits a request once, unless the token has fired, and waits for the outcome. -/
def transact (l : Ledger σ) (timeoutSecs : Nat) (operation : Operation) (request : Request)
    (refusal : LedgerError → DeployError) : Action σ Receipt := do
  ensureNotCancelled operation
  let transaction ← submit l request refusal
  confirm l transaction timeoutSecs operation

/-- Creates a component and records it. -/
def deploy (l : Ledger σ) (timeoutSecs : Nat) (c : Component) (registry : Registry) :
    Action σ (Address × Registry) := do
  if registry.contains c.name then
    throw (.duplicateName c.name)
  let creation ← ofExcept (creationOf registry l.deployer c)
  let receipt ← transact l timeoutSecs (.creation c.name) (.create creation) (creationError c.name)
  let address ← ofExcept (createdAddress c.name receipt)
  let extended ← ofExcept
    (registry.put { name := c.name, address, transaction := receipt.transaction, block := receipt.block })
  pure (address, extended)

end Rollout.Run
