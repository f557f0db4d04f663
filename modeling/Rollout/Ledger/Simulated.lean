import Rollout.Data.Assoc
import Rollout.Ledger
import Rollout.Naming.Path

/-!
# Ledger/Simulated — a ledger in memory

Contracts get the addresses that their creator's nonce gives them. A call takes effect when it is
submitted, and only with authority:

* `setSubnodeOwner` and `setResolver`: the sender owns the parent node, or the node, in the registry
  that is called; the root belongs to the creator of the registry;
* `setInterface`: the sender owns the node in the registry that the resolver was created with;
* `addController`: the sender created the contract.

A reverted request leaves nothing but a receipt, and a refused one leaves nothing. Faults can be
switched on: failing or refused creations, confirmations that never come, reads that fail, and
owners that become visible to reads only after a number of stale reads.
-/

namespace Rollout.Simulated

/-- A contract as it was created. -/
structure Contract where
  contract : String
  creator : Address
  args : List AbiValue
  deriving DecidableEq

/-- The registry that a resolver points at: the first address among its arguments. -/
def Contract.registry? (c : Contract) : Option Address :=
  c.args.findSome? AbiValue.address?

/-- An owner that reads still show, and how often. -/
structure StaleOwner where
  previous : Address
  remaining : Nat
  deriving DecidableEq

structure State where
  nonce : Nat := 0
  block : Nat := 0
  submissions : Nat := 0
  contracts : Assoc Address Contract := {}
  owners : Assoc (Address × Node) Address := {}
  resolvers : Assoc (Address × Node) Address := {}
  interfaces : Assoc (Address × Node × InterfaceId) Address := {}
  controllers : Assoc Address (List Address) := {}
  receipts : Assoc Digest Receipt := {}
  stale : Assoc (Address × Node) StaleOwner := {}
  deriving DecidableEq

structure Faults where
  /-- Components whose creation reverts. -/
  failing : List String := []
  /-- Components whose creation is refused. -/
  refused : List String := []
  /-- Whether confirmations never come. -/
  stalled : Bool := false
  /-- Whether owner reads fail. -/
  unreadable : Bool := false
  /-- The number of stale reads after an owner changes. -/
  lag : Nat := 0
  deriving DecidableEq

/-- What can be changed about the faults.  All but the lag stay once they are there. -/
inductive Switch where
  | fail (component : String)
  | refuse (component : String)
  | stall
  | blind
  | lag (reads : Nat)
  deriving DecidableEq

def Faults.set (f : Faults) : Switch → Faults
  | .fail component => { f with failing := f.failing ++ [component] }
  | .refuse component => { f with refused := f.refused ++ [component] }
  | .stall => { f with stalled := true }
  | .blind => { f with unreadable := true }
  | .lag reads => { f with lag := reads }

/-- The ledger's state and the faults in force. -/
structure World where
  state : State := {}
  faults : Faults := {}
  deriving DecidableEq

/-! ## Calls -/

/-- The owner of a node, stale reads aside. -/
def State.ownerOf (s : State) (registry : Address) (node : Node) : Address :=
  match s.owners.get? (registry, node) with
  | some owner => owner
  | none =>
    if node = Naming.root then
      match s.contracts.get? registry with
      | some contract => contract.creator
      | none => FixedBytes.zero 20
    else FixedBytes.zero 20

/-- Why a call reverts. -/
inductive Revert where
  | noContract (target : Address)
  | notOwner (sender : Address) (node : Node) (owner : Address)
  | unboundResolver (target : Address)
  | notCreator (sender target : Address)
  deriving DecidableEq

def Revert.message : Revert → String
  | noContract target => s!"no contract deployed at {target.checksummed}"
  | notOwner sender node owner =>
    s!"sender {sender.checksummed} does not own node {node} (owner is {owner.checksummed})"
  | unboundResolver target => s!"{target.checksummed} is not bound to a naming registry"
  | notCreator sender target => s!"{sender.checksummed} is not the owner of {target.checksummed}"

/-- Passes if the sender owns the node. -/
def State.requireOwner (s : State) (sender registry : Address) (node : Node) : Except Revert Unit :=
  if s.ownerOf registry node = sender then .ok ()
  else .error (.notOwner sender node (s.ownerOf registry node))

/-- The controllers of a registrar, the latest last. -/
def State.controllersOf (s : State) (registrar : Address) : List Address :=
  (s.controllers.get? registrar).getD []

/-- The effect of a call, apart from counters and receipts. -/
def State.execute (s : State) (sender target : Address) (call : Call) : Except Revert State :=
  match s.contracts.get? target with
  | none => .error (.noContract target)
  | some contract =>
    match call with
    | .setSubnodeOwner node label owner =>
      match s.requireOwner sender target node with
      | .error revert => .error revert
      | .ok () => .ok { s with owners := s.owners.insert (target, Naming.subnode node label) owner }
    | .setResolver node resolver =>
      match s.requireOwner sender target node with
      | .error revert => .error revert
      | .ok () => .ok { s with resolvers := s.resolvers.insert (target, node) resolver }
    | .setInterface node interfaceId implementer =>
      match contract.registry? with
      | none => .error (.unboundResolver target)
      | some registry =>
        match s.requireOwner sender registry node with
        | .error revert => .error revert
        | .ok () =>
          .ok { s with interfaces := s.interfaces.insert (target, node, interfaceId) implementer }
    | .addController controller =>
      if contract.creator = sender then
        .ok { s with
          controllers := s.controllers.insert target (s.controllersOf target ++ [controller]) }
      else .error (.notCreator sender target)

/-! ## Submissions -/

/-- The hash of the `n`-th accepted submission, counted from one. -/
def transactionHash (n : Nat) : Digest :=
  Keccak.digest (bigEndian 8 n)

/-- Counts an accepted submission, which gets a block of its own. -/
def State.count (s : State) : State :=
  { s with submissions := s.submissions + 1, block := s.block + 1 }

/-- Keeps the receipt of the submission just counted. -/
def State.keep (s : State) (receipt : Receipt) : State :=
  { s with receipts := s.receipts.insert receipt.transaction receipt }

/-- The receipt of the submission just counted. -/
def State.receipt (s : State) (success : Bool) (address : Option Address) (reason : Option String) :
    Receipt :=
  { transaction := transactionHash s.submissions, block := s.block, success,
    contractAddress := address, revertReason := reason }

/-- Creates a contract, or reverts if that is its fault. -/
def State.create (s : State) (deployer : Address) (c : Creation) (fails : Bool) : State :=
  let s := s.count
  if fails then s.keep (s.receipt false none (some s!"constructor of {c.contract} reverted"))
  else
    let address := deployer.ofCreation s.nonce
    let created : State :=
      { s with
        nonce := s.nonce + 1
        contracts := s.contracts.insert address ⟨c.contract, deployer, c.args⟩ }
    created.keep (created.receipt true (some address) none)

/-- The entry whose owner a call changes, with the owner before. -/
def State.ownerChange? (s : State) (target : Address) : Call → Option ((Address × Node) × Address)
  | .setSubnodeOwner node label _ =>
    let child := Naming.subnode node label
    some ((target, child), s.ownerOf target child)
  | _ => none

/-- Lets reads show the owner before for some time. -/
def State.delay (s : State) (lag : Nat) : Option ((Address × Node) × Address) → State
  | some (key, previous) =>
    if lag = 0 then s else { s with stale := s.stale.insert key ⟨previous, lag⟩ }
  | none => s

/-- Executes a call, or reverts it. -/
def State.call (s : State) (deployer target : Address) (call : Call) (lag : Nat) : State :=
  let counted := s.count
  match counted.execute deployer target call with
  | .ok changed =>
    (changed.delay lag (s.ownerChange? target call)).keep (changed.receipt true none none)
  | .error revert => counted.keep (counted.receipt false none (some revert.message))

/-- Takes a request; a refused one changes nothing. -/
def submit (deployer : Address) (request : Request) (w : World) : Except LedgerError Digest × World :=
  match request with
  | .create c =>
    if c.name ∈ w.faults.refused then
      (.error (.transport [s!"submission of {c.name} refused by the node"]), w)
    else
      let state := w.state.create deployer c (c.name ∈ w.faults.failing)
      (.ok (transactionHash state.submissions), { w with state })
  | .call target call =>
    let state := w.state.call deployer target call w.faults.lag
    (.ok (transactionHash state.submissions), { w with state })

/-! ## Confirmations and reads -/

/-- The receipt is there at once, unless confirmations never come. -/
def await (transaction : Digest) (_limit : Nat) (w : World) : Confirmation World :=
  if w.faults.stalled then .unsettled w
  else
    match w.state.receipts.get? transaction with
    | some receipt => .settled 0 (.ok receipt) w
    | none => .settled 0 (.error (.transport [s!"unknown transaction {transaction}"])) w

/-- The owner that a read shows, and what the read uses up. -/
def State.read (s : State) (registry : Address) (node : Node) : Address × State :=
  match s.stale.get? (registry, node) with
  | none => (s.ownerOf registry node, s)
  | some ⟨_, 0⟩ =>
    (s.ownerOf registry node, { s with stale := s.stale.erase (registry, node) })
  | some ⟨previous, remaining + 1⟩ =>
    (previous, { s with stale := s.stale.insert (registry, node) ⟨previous, remaining⟩ })

def owner (registry : Address) (node : Node) (w : World) : OwnerRead World :=
  if w.faults.unreadable then ⟨.error (.transport ["owner read unavailable"]), 0, w⟩
  else
    let (shown, state) := w.state.read registry node
    ⟨.ok shown, 0, { w with state }⟩

end Rollout.Simulated

namespace Rollout

/-- The ledger in memory whose requests the given account signs. -/
def Simulated.ledger (deployer : Address) : Ledger Simulated.World where
  deployer := deployer
  submit := Simulated.submit deployer
  await := Simulated.await
  owner := Simulated.owner

end Rollout
