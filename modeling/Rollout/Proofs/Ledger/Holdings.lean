import Rollout.Ledger.Simulated

/-!
# Proofs/Ledger/Holdings — what lasts on the ledger in memory

Of the state of the ledger, counters, receipts and stale reads only serve the account of a run; the
nonce, the contracts and the four maps of assignments are what a run is for (`State.holdings`).
Reads and waits leave them alone, and a submission changes them as the request says, whatever the
rest of the state is.
-/

namespace Rollout.Simulated

/-- The state without counters of submissions, receipts and stale reads. -/
def State.holdings (s : State) : State :=
  { s with block := 0, submissions := 0, receipts := {}, stale := {} }

/-- Two worlds with the same holdings and the same faults. -/
structure Alike (w w' : World) : Prop where
  holdings : w'.state.holdings = w.state.holdings
  faults : w'.faults = w.faults

namespace Alike

variable {w w' w'' : World}

theorem refl (w : World) : Alike w w := ⟨rfl, rfl⟩

theorem trans (h : Alike w w') (h' : Alike w' w'') : Alike w w'' :=
  ⟨h'.holdings.trans h.holdings, h'.faults.trans h.faults⟩

end Alike

/-! ## Reads and waits -/

theorem alike_owner (registry : Address) (node : Node) (w : World) :
    Alike w (owner registry node w).state := by
  rw [owner]
  split
  · exact .refl w
  · refine ⟨?_, rfl⟩
    change (w.state.read registry node).2.holdings = _
    rw [State.read]
    split <;> rfl

/-! ## Effects -/

/-- The effect of a call that is carried out. -/
def State.apply (s : State) (target : Address) : Call → State
  | .setSubnodeOwner node label owner =>
    { s with owners := s.owners.insert (target, Naming.subnode node label) owner }
  | .setResolver node resolver => { s with resolvers := s.resolvers.insert (target, node) resolver }
  | .setInterface node interfaceId implementer =>
    { s with interfaces := s.interfaces.insert (target, node, interfaceId) implementer }
  | .addController controller =>
    { s with controllers := s.controllers.insert target (s.controllersOf target ++ [controller]) }

/-- The effect of a creation that is carried out. -/
def State.produce (s : State) (deployer : Address) (c : Creation) : State :=
  { s with
    nonce := s.nonce + 1
    contracts := s.contracts.insert (deployer.ofCreation s.nonce) ⟨c.contract, deployer, c.args⟩ }

/-- A call reverts or is carried out. -/
theorem apply_of_execute {s changed : State} {sender target : Address} {call : Call}
    (h : s.execute sender target call = .ok changed) : changed = s.apply target call := by
  rw [State.execute] at h
  split at h
  · cases h
  · cases call with
    | setInterface node interfaceId implementer =>
      dsimp only at h
      split at h
      · cases h
      · split at h <;> cases h
        rfl
    | _ =>
      dsimp only at h
      split at h <;> cases h
      rfl

theorem requireOwner_holdings (s : State) (sender registry : Address) (node : Node) :
    s.holdings.requireOwner sender registry node = s.requireOwner sender registry node := rfl

/-- Whether a call reverts only depends on the holdings, and so does its effect on them. -/
theorem execute_holdings (s : State) (sender target : Address) (call : Call) :
    s.holdings.execute sender target call = (s.execute sender target call).map State.holdings := by
  rw [State.execute, State.execute, show s.holdings.contracts = s.contracts from rfl]
  cases s.contracts.get? target with
  | none => rfl
  | some contract =>
    cases call with
    | addController controller =>
      dsimp only
      split <;> rfl
    | setInterface node interfaceId implementer =>
      dsimp only
      cases contract.registry? with
      | none => rfl
      | some registry =>
        dsimp only
        rw [requireOwner_holdings]
        cases s.requireOwner sender registry node <;> rfl
    | _ node =>
      dsimp only
      rw [requireOwner_holdings]
      cases s.requireOwner sender target node <;> rfl

/-! ## Submissions -/

theorem holdings_delay (s : State) (lag : Nat) (change : Option ((Address × Node) × Address)) :
    (s.delay lag change).holdings = s.holdings := by
  cases change with
  | none => rfl
  | some entry =>
    rw [State.delay]
    split <;> rfl

theorem holdings_create (s : State) (deployer : Address) (c : Creation) (fails : Bool) :
    (s.create deployer c fails).holdings =
      if fails then s.holdings else s.holdings.produce deployer c := by
  rw [State.create]
  split <;> rfl

theorem holdings_call (s : State) (deployer target : Address) (call : Call) (lag : Nat) :
    (s.call deployer target call lag).holdings =
      match s.holdings.execute deployer target call with
      | .ok changed => changed
      | .error _ => s.holdings := by
  have hcount := execute_holdings s.count deployer target call
  rw [show s.count.holdings = s.holdings from rfl] at hcount
  rw [hcount, State.call]
  cases s.count.execute deployer target call with
  | error revert => rfl
  | ok changed =>
    change (State.delay ..).holdings = changed.holdings
    exact holdings_delay ..

/-- What a submission changes about the holdings does not depend on anything else. -/
theorem holdings_submit (deployer : Address) (request : Request) (w : World) :
    (submit deployer request ⟨w.state.holdings, w.faults⟩).2.state.holdings =
      (submit deployer request w).2.state.holdings := by
  cases request with
  | create c =>
    rw [submit, submit]
    dsimp only
    split
    · rfl
    · rw [holdings_create, holdings_create]
      rfl
  | call target call =>
    rw [submit, submit]
    dsimp only
    rw [holdings_call, holdings_call]
    rfl

theorem faults_submit (deployer : Address) (request : Request) (w : World) :
    (submit deployer request w).2.faults = w.faults := by
  cases request with
  | create c =>
    rw [submit]
    split <;> rfl
  | call target call => rfl

theorem submit_eq_error {deployer : Address} {request : Request} {w w' : World}
    {error : LedgerError} (h : submit deployer request w = (.error error, w')) : w' = w := by
  cases request with
  | create c =>
    rw [submit] at h
    split at h <;> cases h
    rfl
  | call target call => cases h

/-- A submission keeps worlds alike. -/
theorem Alike.submit {w w' : World} (h : Alike w w') (deployer : Address) (request : Request) :
    Alike (submit deployer request w).2 (submit deployer request w').2 where
  holdings := by
    rw [← holdings_submit deployer request w', h.holdings, h.faults, holdings_submit]
  faults := by rw [faults_submit, faults_submit, h.faults]

theorem contracts_apply (s : State) (target : Address) (call : Call) :
    (s.apply target call).contracts = s.contracts := by
  cases call <;> rfl

/-- Whoever is given a node owns it. -/
theorem ownerOf_apply (s : State) (registry : Address) (node other : Node) (label : Digest)
    (owner : Address) :
    (s.apply registry (.setSubnodeOwner node label owner)).ownerOf registry other =
      if Naming.subnode node label = other then owner else s.ownerOf registry other := by
  by_cases hsame : Naming.subnode node label = other
  · simp [State.ownerOf, State.apply, Assoc.get?_insert, hsame]
  · simp [State.ownerOf, State.apply, Assoc.get?_insert, hsame]

/-- A submission makes a contract at the next address of the deployer at most. -/
theorem get?_contracts_submit {deployer address : Address} {request : Request} {w : World}
    (h : ∀ c, request = .create c → address ≠ deployer.ofCreation w.state.nonce) :
    (submit deployer request w).2.state.contracts.get? address =
      w.state.contracts.get? address := by
  cases request with
  | create c =>
    rw [submit]
    split
    · rfl
    · have hcreate := congrArg State.contracts
        (holdings_create w.state deployer c (c.name ∈ w.faults.failing))
      change (State.create ..).holdings.contracts.get? address = _
      rw [hcreate]
      split
      · rfl
      · exact (Assoc.get?_insert ..).trans (if_neg (h c rfl).symm)
  | call target call =>
    have hcall := congrArg State.contracts
      (holdings_call w.state deployer target call w.faults.lag)
    change (State.call ..).holdings.contracts.get? address = _
    rw [hcall]
    cases hexecute : w.state.holdings.execute deployer target call with
    | error revert => rfl
    | ok changed =>
      rw [apply_of_execute hexecute]
      exact congrArg (Assoc.get? · address) (contracts_apply ..)

/-! ## Receipts -/

/-- What an accepted request did, as its receipt tells. -/
inductive Executed (deployer : Address) (s s' : State) : Request → Receipt → Prop where
  | reverted {request : Request} {receipt : Receipt} (hreceipt : receipt.success = false)
      (hholdings : s'.holdings = s.holdings) : Executed deployer s s' request receipt
  | created {c : Creation} {receipt : Receipt} (hreceipt : receipt.success = true)
      (haddress : receipt.contractAddress = some (deployer.ofCreation s.nonce))
      (hholdings : s'.holdings = s.holdings.produce deployer c) :
      Executed deployer s s' (.create c) receipt
  | called {target : Address} {call : Call} {receipt : Receipt} (hreceipt : receipt.success = true)
      (hholdings : s'.holdings = s.holdings.apply target call) :
      Executed deployer s s' (.call target call) receipt

/-- The receipt that was just kept is found. -/
theorem receipt_keep (s : State) {receipt : Receipt} {transaction : Digest}
    (h : receipt.transaction = transaction) :
    (s.keep receipt).receipts.get? transaction = some receipt := by
  rw [State.keep, Assoc.get?_insert, if_pos h]

theorem submissions_delay (s : State) (lag : Nat) (change : Option ((Address × Node) × Address)) :
    (s.delay lag change).submissions = s.submissions := by
  cases change with
  | none => rfl
  | some entry =>
    rw [State.delay]
    split <;> rfl

theorem executed_create (s : State) (deployer : Address) (c : Creation) (fails : Bool) :
    ∃ receipt,
      (s.create deployer c fails).receipts.get?
        (transactionHash (s.create deployer c fails).submissions) = some receipt ∧
      Executed deployer s (s.create deployer c fails) (.create c) receipt := by
  cases fails with
  | true => exact ⟨_, receipt_keep _ rfl, .reverted rfl rfl⟩
  | false => exact ⟨_, receipt_keep _ rfl, .created rfl rfl rfl⟩

/-- A creation that does not revert has a receipt with the new address. -/
theorem receipt_create (s : State) (deployer : Address) (c : Creation) :
    ∃ receipt,
      (s.create deployer c false).receipts.get?
        (transactionHash (s.create deployer c false).submissions) = some receipt ∧
      receipt.success = true ∧ receipt.contractAddress = some (deployer.ofCreation s.nonce) :=
  ⟨_, receipt_keep _ rfl, rfl, rfl⟩

theorem executed_call (s : State) (deployer target : Address) (call : Call) (lag : Nat) :
    ∃ receipt,
      (s.call deployer target call lag).receipts.get?
        (transactionHash (s.call deployer target call lag).submissions) = some receipt ∧
      Executed deployer s (s.call deployer target call lag) (.call target call) receipt := by
  have hholdings := holdings_call s deployer target call lag
  have hcount := execute_holdings s.count deployer target call
  rw [show s.count.holdings = s.holdings from rfl] at hcount
  rw [hcount] at hholdings
  cases hexecute : s.count.execute deployer target call with
  | error revert =>
    rw [State.call, hexecute]
    exact ⟨_, receipt_keep _ rfl, .reverted rfl rfl⟩
  | ok changed =>
    rw [hexecute] at hholdings hcount
    have heffect : changed.holdings = s.holdings.apply target call := apply_of_execute hcount
    -- the receipt is kept under the number of this submission, which a delay leaves alone
    have hhash := congrArg transactionHash
      (submissions_delay changed lag (s.count.ownerChange? target call))
    rw [State.call, hexecute] at hholdings ⊢
    exact ⟨_, receipt_keep _ hhash.symm, .called rfl (hholdings.trans heffect)⟩

/-- The receipt of an accepted request is there at once, and tells what the request did. -/
theorem executed_of_submit {deployer : Address} {request : Request} {w w' : World}
    {transaction : Digest} (h : submit deployer request w = (.ok transaction, w')) :
    ∃ receipt, w'.state.receipts.get? transaction = some receipt ∧
      Executed deployer w.state w'.state request receipt := by
  cases request with
  | create c =>
    rw [submit] at h
    split at h <;> cases h
    exact executed_create ..
  | call target call =>
    cases h
    exact executed_call ..

/-- A call whose receipt tells of success was carried out, with the authority that it takes. -/
theorem execute_of_receipt {deployer target : Address} {call : Call} {w w' : World}
    {transaction : Digest} {receipt : Receipt}
    (h : submit deployer (.call target call) w = (.ok transaction, w'))
    (hreceipt : w'.state.receipts.get? transaction = some receipt)
    (hsuccess : receipt.success = true) :
    w.state.holdings.execute deployer target call = .ok w'.state.holdings := by
  cases h
  have hholdings := holdings_call w.state deployer target call w.faults.lag
  have hcount := execute_holdings w.state.count deployer target call
  rw [show w.state.count.holdings = w.state.holdings from rfl] at hcount
  cases hexecute : w.state.count.execute deployer target call with
  | error revert =>
    rw [State.call, hexecute] at hreceipt
    obtain rfl := Option.some.inj ((receipt_keep w.state.count rfl).symm.trans hreceipt)
    cases hsuccess
  | ok changed =>
    rw [hexecute] at hcount
    rw [hcount] at hholdings ⊢
    exact congrArg Except.ok hholdings.symm

/-- A call that is accepted has a receipt, which tells of success exactly if it was carried out. -/
theorem receipt_of_call (deployer target : Address) (call : Call) (w : World) :
    ∃ transaction receipt,
      submit deployer (.call target call) w =
        (.ok transaction, (submit deployer (.call target call) w).2) ∧
      (submit deployer (.call target call) w).2.state.receipts.get? transaction = some receipt ∧
      (receipt.success = true ↔ ∃ changed,
        w.state.holdings.execute deployer target call = .ok changed) := by
  obtain ⟨receipt, hreceipt, hexecuted⟩ := executed_call w.state deployer target call w.faults.lag
  refine ⟨_, receipt, rfl, hreceipt, fun hsuccess => ?_, fun ⟨changed, hchanged⟩ => ?_⟩
  · exact ⟨_, execute_of_receipt rfl hreceipt hsuccess⟩
  · have hcount := execute_holdings w.state.count deployer target call
    rw [show w.state.count.holdings = w.state.holdings from rfl, hchanged] at hcount
    cases hexecute : w.state.count.execute deployer target call with
    | error revert =>
      rw [hexecute] at hcount
      cases hcount
    | ok state =>
      have hhash := congrArg transactionHash
        (submissions_delay state w.faults.lag (w.state.count.ownerChange? target call))
      rw [State.call, hexecute] at hreceipt
      obtain rfl := Option.some.inj ((receipt_keep _ hhash.symm).symm.trans hreceipt)
      rfl

theorem await_of_receipt {w : World} {transaction : Digest} {receipt : Receipt} (limit : Nat)
    (h : w.state.receipts.get? transaction = some receipt) :
    await transaction limit w =
      if w.faults.stalled then .unsettled w else .settled 0 (.ok receipt) w := by
  rw [await, h]

/-! ## Authority -/

/-- **What a call takes**: a contract to be made on, and the ownership of the node in the registry
that the contract is or points at, or of the contract. -/
inductive Granted (s : State) (sender target : Address) : Call → Prop where
  | subnode {contract : Contract} {node label : Digest} {owner : Address}
      (hcontract : s.contracts.get? target = some contract)
      (howner : s.ownerOf target node = sender) :
      Granted s sender target (.setSubnodeOwner node label owner)
  | resolver {contract : Contract} {node : Digest} {resolver : Address}
      (hcontract : s.contracts.get? target = some contract)
      (howner : s.ownerOf target node = sender) :
      Granted s sender target (.setResolver node resolver)
  | interface {contract : Contract} {registry : Address} {node : Digest} {interfaceId : InterfaceId}
      {implementer : Address} (hcontract : s.contracts.get? target = some contract)
      (hregistry : contract.registry? = some registry) (howner : s.ownerOf registry node = sender) :
      Granted s sender target (.setInterface node interfaceId implementer)
  | controller {contract : Contract} {controller : Address}
      (hcontract : s.contracts.get? target = some contract) (hcreator : contract.creator = sender) :
      Granted s sender target (.addController controller)

theorem requireOwner_eq_ok {s : State} {sender registry : Address} {node : Node} :
    s.requireOwner sender registry node = .ok () ↔ s.ownerOf registry node = sender := by
  simp [State.requireOwner]

/-- A call is carried out for nobody else. -/
theorem granted_of_execute {s changed : State} {sender target : Address} {call : Call}
    (h : s.execute sender target call = .ok changed) : Granted s sender target call := by
  rw [State.execute] at h
  cases hcontract : s.contracts.get? target with
  | none => simp [hcontract] at h
  | some contract =>
    cases call with
    | setSubnodeOwner node label owner =>
      cases hcheck : s.requireOwner sender target node with
      | error revert => simp [hcontract, hcheck] at h
      | ok u => exact .subnode hcontract (requireOwner_eq_ok.1 hcheck)
    | setResolver node resolver =>
      cases hcheck : s.requireOwner sender target node with
      | error revert => simp [hcontract, hcheck] at h
      | ok u => exact .resolver hcontract (requireOwner_eq_ok.1 hcheck)
    | setInterface node interfaceId implementer =>
      cases hregistry : contract.registry? with
      | none => simp [hcontract, hregistry] at h
      | some registry =>
        cases hcheck : s.requireOwner sender registry node with
        | error revert => simp [hcontract, hregistry, hcheck] at h
        | ok u => exact .interface hcontract hregistry (requireOwner_eq_ok.1 hcheck)
    | addController controller =>
      by_cases hcreator : contract.creator = sender
      · exact .controller hcontract hcreator
      · simp [hcontract, hcreator] at h

theorem execute_of_granted {s : State} {sender target : Address} {call : Call}
    (h : Granted s sender target call) :
    s.execute sender target call = .ok (s.apply target call) := by
  cases h with
  | subnode hcontract howner =>
    simp only [State.execute, State.apply, hcontract, requireOwner_eq_ok.2 howner]
  | resolver hcontract howner =>
    simp only [State.execute, State.apply, hcontract, requireOwner_eq_ok.2 howner]
  | interface hcontract hregistry howner =>
    simp only [State.execute, State.apply, hcontract, hregistry, requireOwner_eq_ok.2 howner]
  | controller hcontract hcreator =>
    simp only [State.execute, State.apply, hcontract, hcreator, if_true]

/-- Below the root, only somebody a node was assigned to owns it. -/
theorem get?_owners_of_ownerOf {s : State} {registry account : Address} {node : Node}
    (h : s.ownerOf registry node = account) (hnode : node ≠ Naming.root)
    (haccount : account ≠ .zero 20) : s.owners.get? (registry, node) = some account := by
  rw [State.ownerOf] at h
  cases howner : s.owners.get? (registry, node) with
  | none => exact absurd (by simpa [howner, hnode] using h.symm) haccount
  | some owner => simpa [howner] using h

/-- A root that was not assigned belongs to the creator of its registry. -/
theorem ownerOf_root {s : State} {registry : Address} {contract : Contract}
    (hunassigned : s.owners.get? (registry, Naming.root) = none)
    (hcontract : s.contracts.get? registry = some contract) :
    s.ownerOf registry Naming.root = contract.creator := by
  rw [State.ownerOf, hunassigned]
  simp [hcontract]

end Rollout.Simulated
