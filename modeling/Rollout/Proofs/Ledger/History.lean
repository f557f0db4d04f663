import Mathlib.Data.List.Induction
import Rollout.Proofs.Ledger.Holdings
import Rollout.Proofs.Run.Waiting

/-!
# Proofs/Ledger/History — what a history makes of the ledger in memory

A client of the ledger submits requests, waits for transactions, reads owners and sets faults, in
any order (`Event`); what it finds is what its history made of an empty ledger (`World.play`).
`effect_of_step` says once what one event can do to the holdings: only a submission that succeeds
changes them, as its request says and with the authority that it takes.
-/

namespace Rollout.Simulated

open Run (stateAfter)

/-! ## Events and histories -/

/-- What a client can do with the ledger. -/
inductive Event where
  | submit (request : Request)
  | await (transaction : Digest) (limit : Nat)
  | read (registry : Address) (node : Node)
  | set (switch : Switch)

namespace World

/-- The world after one more event. -/
def step (deployer : Address) (w : World) : Event → World
  | .submit request => (submit deployer request w).2
  | .await transaction limit => stateAfter (await transaction limit w)
  | .read registry node => (owner registry node w).state
  | .set switch => { w with faults := w.faults.set switch }

/-- The world after a history. -/
def play (deployer : Address) (w : World) (history : List Event) : World :=
  history.foldl (step deployer) w

variable (deployer : Address) (w : World) (e : Event) (earlier later : List Event)

@[simp] theorem play_nil : w.play deployer [] = w := rfl

@[simp] theorem play_cons :
    w.play deployer (e :: later) = (w.step deployer e).play deployer later := rfl

@[simp] theorem play_append :
    w.play deployer (earlier ++ later) = (w.play deployer earlier).play deployer later :=
  List.foldl_append

@[simp] theorem play_singleton : w.play deployer [e] = w.step deployer e := rfl

end World

/-- A wait leaves the ledger as it is. -/
theorem stateAfter_await (transaction : Digest) (limit : Nat) (w : World) :
    stateAfter (await transaction limit w) = w := by
  rw [await]
  split
  · rfl
  · split <;> rfl

/-! ## Effects -/

/-- A submission that is accepted and does not revert, as its receipt tells. -/
def Succeeds (deployer : Address) (request : Request) (w : World) : Prop :=
  ∃ transaction receipt, (submit deployer request w).1 = .ok transaction ∧
    (submit deployer request w).2.state.receipts.get? transaction = some receipt ∧
    receipt.success = true

/-- **What an event does to the holdings**: nothing, or what the request of a submission says that
succeeds. -/
inductive Effect (deployer : Address) (w w' : World) : Event → Prop where
  | kept {e : Event} (hholdings : w'.state.holdings = w.state.holdings) : Effect deployer w w' e
  | created {c : Creation} (hsuccess : Succeeds deployer (.create c) w)
      (hholdings : w'.state.holdings = w.state.holdings.produce deployer c) :
      Effect deployer w w' (.submit (.create c))
  | called {target : Address} {call : Call} (hsuccess : Succeeds deployer (.call target call) w)
      (hgranted : Granted w.state.holdings deployer target call)
      (hholdings : w'.state.holdings = w.state.holdings.apply target call) :
      Effect deployer w w' (.submit (.call target call))

theorem effect_of_submit (deployer : Address) (request : Request) (w : World) :
    Effect deployer w (submit deployer request w).2 (.submit request) := by
  rcases hsubmit : submit deployer request w with ⟨error | transaction, w'⟩
  · exact .kept (by rw [submit_eq_error hsubmit])
  · obtain ⟨receipt, hreceipt, hexecuted⟩ := executed_of_submit hsubmit
    have hsucceeds (hsuccess : receipt.success = true) : Succeeds deployer request w :=
      ⟨transaction, receipt, by rw [hsubmit], by rw [hsubmit]; exact hreceipt, hsuccess⟩
    cases hexecuted with
    | reverted _ hholdings => exact .kept hholdings
    | created hsuccess _ hholdings => exact .created (hsucceeds hsuccess) hholdings
    | called hsuccess hholdings =>
      have hexecute := execute_of_receipt hsubmit hreceipt hsuccess
      exact .called (hsucceeds hsuccess) (granted_of_execute hexecute) hholdings

theorem effect_of_step (deployer : Address) (w : World) (e : Event) :
    Effect deployer w (w.step deployer e) e := by
  cases e with
  | submit request => exact effect_of_submit deployer request w
  | await transaction limit =>
    exact .kept (congrArg (·.state.holdings) (stateAfter_await transaction limit w))
  | read registry node => exact .kept (alike_owner registry node w).holdings
  | set switch => exact .kept rfl

/-- **The induction over a history**: what holds at the start and is kept by every effect holds
after every history. -/
theorem of_play {deployer : Address} {w : World} {P : World → Prop} (hstart : P w)
    (hkept : ∀ {w w' e}, Effect deployer w w' e → P w → P w') (history : List Event) :
    P (w.play deployer history) := by
  induction history using List.reverseRecOn with
  | nil => exact hstart
  | append_singleton earlier e ih =>
    rw [World.play_append]
    exact hkept (effect_of_step deployer _ e) ih

end Rollout.Simulated
