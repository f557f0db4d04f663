import Rollout.DeployError

/-!
# Ledger — what a run asks of the chain it deploys to

A `Ledger σ` is the behaviour of a chain whose state is `σ`: it takes requests, answers each with a
transaction hash, settles the transaction some time later, and answers reads of a node's owner.
Submitting is not idempotent: every accepted creation makes another contract.
-/

namespace Rollout

/-- The creation of a contract, with arguments and library addresses resolved. -/
structure Creation where
  /-- The component, for messages. -/
  name : String
  contract : String
  args : List AbiValue
  libraries : List (String × Address)
  deriving DecidableEq

inductive Request where
  | create (c : Creation)
  | call (target : Address) (c : Call)
  deriving DecidableEq

/-- The outcome of a transaction. -/
structure Receipt where
  transaction : Digest
  block : Nat
  /-- A transaction without success was reverted. -/
  success : Bool
  contractAddress : Option Address
  revertReason : Option String
  deriving DecidableEq

namespace Receipt

/-- Null for an absent value. -/
def orNull {α : Type} (write : α → Value) : Option α → Value
  | none => .null
  | some a => write a

def toValue (r : Receipt) : Value :=
  .object [("tx_hash", .string r.transaction.toHex), ("block_number", .unsigned r.block),
    ("success", .bool r.success),
    ("contract_address", orNull (fun a => .string a.toHex) r.contractAddress),
    ("revert_reason", orNull .string r.revertReason)]

end Receipt

/-- How a wait for a confirmation ends: settled after some milliseconds, or not within the limit. -/
inductive Confirmation (σ : Type) where
  | settled (elapsed : Nat) (answer : Except LedgerError Receipt) (state : σ)
  | unsettled (state : σ)

/-- The answer to a read, and the milliseconds it took. -/
structure OwnerRead (σ : Type) where
  answer : Except LedgerError Address
  elapsed : Nat
  state : σ

/-- The behaviour of a ledger with the given states. -/
structure Ledger (σ : Type) where
  /-- The account that signs every request. -/
  deployer : Address
  submit : Request → σ → Except LedgerError Digest × σ
  /-- Waits for a transaction, at most the given number of milliseconds. -/
  await : Digest → Nat → σ → Confirmation σ
  /-- Reads the owner of a node in a naming registry. -/
  owner : Address → Digest → σ → OwnerRead σ

end Rollout
