import Rollout.Proofs.Ledger.Observation

/-!
# Proofs/Ledger/Frame — what a request leaves alone

The state of the ledger is taken apart into places that hold something each: three numbers, and one
place for every key of every map (`Place`).  What a request does is then told by a list of writes,
and whatever is not on the list stays as it was (`Wrote`).

Every accepted request adds to the account: one submission, one block and one receipt (`account`).
If the receipt tells of success, the one entry that the request names is written too (`effect`), and
else nothing (`Framed`).  The account is kept under numbers and addresses that count up, so its
entries are new unless two digests are the same (`Keyed`).
-/

namespace Rollout.Simulated

variable {deployer : Address} {request : Request} {receipt : Receipt} {lag : Nat}
  {s s' s'' : State} {w w' : World} {e : Event}

/-! ## Accepted requests -/

/-- The effect of a request that succeeds, counters and receipts apart. -/
def State.perform (s : State) (deployer : Address) (lag : Nat) : Request → State
  | .create c => s.produce deployer c
  | .call target call => (s.apply target call).delay lag (s.ownerChange? target call)

/-- **What an accepted request does**: its effect if the receipt tells of success, and then an entry
for the account. -/
structure Recorded (deployer : Address) (lag : Nat) (request : Request) (s s' : State)
    (receipt : Receipt) : Prop where
  transaction : receipt.transaction = transactionHash (s.submissions + 1)
  block : receipt.block = s.block + 1
  /-- A creation that succeeds tells the address of its contract. -/
  address : ∀ c, request = .create c → receipt.success = true →
    receipt.contractAddress = some (deployer.ofCreation s.nonce)
  state : s' =
    (if receipt.success then s.perform deployer lag request else s).count.keep receipt

theorem recorded_create (s : State) (deployer : Address) (lag : Nat) (c : Creation) (fails : Bool) :
    ∃ receipt, receipt.transaction = transactionHash (s.create deployer c fails).submissions ∧
      Recorded deployer lag (.create c) s (s.create deployer c fails) receipt := by
  cases fails with
  | true =>
    let reason := s!"constructor of {c.contract} reverted"
    exact ⟨s.count.receipt false none (some reason), rfl, rfl, rfl, fun _ _ h => (by cases h), rfl⟩
  | false =>
    let address := deployer.ofCreation s.nonce
    exact ⟨s.count.receipt true (some address) none, rfl, rfl, rfl, fun _ _ _ => rfl, rfl⟩

/-- The account is not a matter of effects. -/
theorem account_perform (s : State) (deployer : Address) (lag : Nat) (request : Request) :
    (s.perform deployer lag request).submissions = s.submissions ∧
      (s.perform deployer lag request).block = s.block ∧
      (s.perform deployer lag request).receipts = s.receipts := by
  cases request with
  | create c => exact ⟨rfl, rfl, rfl⟩
  | call target call =>
    cases call with
    | setSubnodeOwner node label owner =>
      dsimp only [State.perform, State.ownerChange?, State.delay]
      split <;> exact ⟨rfl, rfl, rfl⟩
    | _ => exact ⟨rfl, rfl, rfl⟩

/-- A call is carried out after the submission was counted. -/
theorem delay_apply_count (s : State) (deployer target : Address) (call : Call) (lag : Nat) :
    (s.count.apply target call).delay lag (s.ownerChange? target call) =
      (s.perform deployer lag (.call target call)).count := by
  cases call with
  | setSubnodeOwner node label owner =>
    dsimp only [State.perform, State.ownerChange?, State.delay]
    split <;> rfl
  | _ => rfl

theorem receipt_apply (s : State) (target : Address) (call : Call) (success : Bool)
    (address : Option Address) (reason : Option String) :
    (s.apply target call).receipt success address reason = s.receipt success address reason := by
  cases call <;> rfl

theorem recorded_call (s : State) (deployer target : Address) (call : Call) (lag : Nat) :
    ∃ receipt, receipt.transaction = transactionHash (s.call deployer target call lag).submissions ∧
      Recorded deployer lag (.call target call) s (s.call deployer target call lag) receipt := by
  rw [State.call]
  cases hexecute : s.count.execute deployer target call with
  | error revert =>
    exact ⟨s.count.receipt false none (some revert.message), rfl, rfl, rfl, fun _ h => (by cases h),
      rfl⟩
  | ok changed =>
    obtain rfl := apply_of_execute hexecute
    obtain ⟨hsubmissions, -⟩ := account_perform s deployer lag (.call target call)
    dsimp only
    rw [delay_apply_count s deployer, receipt_apply]
    refine ⟨s.count.receipt true none none, ?_, rfl, rfl, fun _ h => (by cases h), rfl⟩
    exact congrArg (fun n => transactionHash (n + 1)) hsubmissions.symm

/-- A request that is accepted is recorded. -/
theorem recorded_of_submit {transaction : Digest}
    (h : submit deployer request w = (.ok transaction, w')) :
    w'.faults = w.faults ∧ ∃ receipt, receipt.transaction = transaction ∧
      Recorded deployer w.faults.lag request w.state w'.state receipt := by
  have hfaults := faults_submit deployer request w
  rw [h] at hfaults
  refine ⟨hfaults, ?_⟩
  cases request with
  | create c =>
    rw [submit] at h
    split at h <;> cases h
    exact recorded_create ..
  | call target call =>
    cases h
    exact recorded_call ..

/-- Only creations are refused, and nothing comes of it. -/
theorem refused_of_submit {error : LedgerError}
    (h : submit deployer request w = (.error error, w')) :
    (∃ c, request = .create c) ∧ w' = w := by
  refine ⟨?_, submit_eq_error h⟩
  cases request with
  | create c => exact ⟨c, rfl⟩
  | call target call => cases h

/-! ## Places -/

/-- A number of the state, or a key of one of its maps. -/
inductive Place where
  | nonce
  | block
  | submissions
  | contract (address : Address)
  | owner (registry : Address) (node : Node)
  | resolver (registry : Address) (node : Node)
  | interface (target : Address) (node : Node) (interfaceId : InterfaceId)
  | controllers (registrar : Address)
  | receipt (transaction : Digest)
  | stale (registry : Address) (node : Node)
  deriving DecidableEq

/-- What a place holds.  A key that is not in its map holds nothing. -/
inductive Content where
  | number (n : Nat)
  | contract (contract? : Option Contract)
  | account (account? : Option Address)
  | accounts (accounts? : Option (List Address))
  | receipt (receipt? : Option Receipt)
  | stale (stale? : Option StaleOwner)

def State.content (s : State) : Place → Content
  | .nonce => .number s.nonce
  | .block => .number s.block
  | .submissions => .number s.submissions
  | .contract address => .contract (s.contracts.get? address)
  | .owner registry node => .account (s.owners.get? (registry, node))
  | .resolver registry node => .account (s.resolvers.get? (registry, node))
  | .interface target node interfaceId => .account (s.interfaces.get? (target, node, interfaceId))
  | .controllers registrar => .accounts (s.controllers.get? registrar)
  | .receipt transaction => .receipt (s.receipts.get? transaction)
  | .stale registry node => .stale (s.stale.get? (registry, node))

/-- **All that was written between two states.**  A place that is listed holds what stands beside
it, where it is listed first, and all others hold what they held before. -/
def Wrote (s : State) (writes : List (Place × Content)) (s' : State) : Prop :=
  ∀ place, s'.content place = (Assoc.lookup place writes).getD (s.content place)

theorem lookup_append (place : Place) (later : List (Place × Content)) :
    ∀ earlier, Assoc.lookup place (earlier ++ later) =
      (Assoc.lookup place earlier).or (Assoc.lookup place later)
  | [] => rfl
  | (other, content) :: earlier => by
      have ih := lookup_append place later earlier
      rw [List.cons_append, Assoc.lookup, Assoc.lookup]
      split
      · rfl
      · exact ih

namespace Wrote

theorem refl (s : State) : Wrote s [] s := fun _ => rfl

/-- What is written later stands first. -/
theorem trans {writes writes' : List (Place × Content)} (h : Wrote s writes s')
    (h' : Wrote s' writes' s'') : Wrote s (writes' ++ writes) s'' := by
  intro place
  rw [h', h, lookup_append]
  cases Assoc.lookup place writes' <;> rfl

/-- An entry of a map is a place among those of the map. -/
theorem insert {K V : Type} [DecidableEq K] (place : K → Place) (content : Option V → Content)
    (m : Assoc K V) (key : K) (value : V) (hbefore : ∀ k, s.content (place k) = content (m.get? k))
    (hafter : ∀ k, s'.content (place k) = content ((m.insert key value).get? k))
    (hother : ∀ other, (∀ k, place k ≠ other) → s'.content other = s.content other) :
    Wrote s [(place key, content (some value))] s' := by
  intro other
  rw [Assoc.lookup]
  split
  · next hsame =>
    rw [← hsame, hafter, Assoc.get?_insert, if_pos rfl]
    rfl
  · next hdiffer =>
    by_cases hmap : ∃ k, place k = other
    · obtain ⟨k, rfl⟩ := hmap
      have hkey : key ≠ k := fun h => hdiffer (congrArg place h)
      rw [hafter, Assoc.get?_insert, if_neg hkey]
      exact (hbefore k).symm
    · exact hother other fun k hk => hmap ⟨k, hk⟩

end Wrote

/-! ## The writes of a request -/

/-- What every accepted request writes: a receipt, and the two numbers that count. -/
def account (s : State) (receipt : Receipt) : List (Place × Content) :=
  [(.receipt receipt.transaction, .receipt (some receipt)),
    (.submissions, .number (s.submissions + 1)), (.block, .number (s.block + 1))]

/-- The entry that a call names. -/
def named (s : State) (target : Address) : Call → Place × Content
  | .setSubnodeOwner node label owner =>
    (.owner target (Naming.subnode node label), .account (some owner))
  | .setResolver node resolver => (.resolver target node, .account (some resolver))
  | .setInterface node interfaceId implementer =>
    (.interface target node interfaceId, .account (some implementer))
  | .addController controller =>
    (.controllers target, .accounts (some (s.controllersOf target ++ [controller])))

/-- The owner before of a node that is given away, if the ledger lags. -/
def overdue (s : State) (target : Address) (lag : Nat) : Call → List (Place × Content)
  | .setSubnodeOwner node label _ =>
    let child := Naming.subnode node label
    if lag = 0 then [] else [(.stale target child, .stale (some ⟨s.ownerOf target child, lag⟩))]
  | _ => []

/-- What a request writes that succeeds. -/
def effect (s : State) (deployer : Address) (lag : Nat) : Request → List (Place × Content)
  | .create c =>
    [(.contract (deployer.ofCreation s.nonce), .contract (some ⟨c.contract, deployer, c.args⟩)),
      (.nonce, .number (s.nonce + 1))]
  | .call target call => overdue s target lag call ++ [named s target call]

theorem wrote_keep (s : State) (receipt : Receipt) :
    Wrote s [(.receipt receipt.transaction, .receipt (some receipt))] (s.keep receipt) := by
  refine .insert .receipt .receipt s.receipts _ receipt (fun _ => rfl) (fun _ => rfl)
    fun other hother => ?_
  cases other with
  | receipt transaction => exact absurd rfl (hother transaction)
  | _ => rfl

theorem wrote_count (s : State) :
    Wrote s [(.submissions, .number (s.submissions + 1)), (.block, .number (s.block + 1))]
      s.count := by
  intro place
  cases place <;> rfl

theorem wrote_produce (s : State) (deployer : Address) (c : Creation) (lag : Nat) :
    Wrote s (effect s deployer lag (.create c)) (s.produce deployer c) := by
  have hnonce : Wrote s [(.nonce, .number (s.nonce + 1))] { s with nonce := s.nonce + 1 } := by
    intro place
    cases place <;> rfl
  refine hnonce.trans (.insert .contract .contract s.contracts _ _ (fun _ => rfl) (fun _ => rfl)
    fun other hother => ?_)
  cases other with
  | contract address => exact absurd rfl (hother address)
  | _ => rfl

/-- A call writes the one entry that it names. -/
theorem wrote_apply (s : State) (target : Address) (call : Call) :
    Wrote s [named s target call] (s.apply target call) := by
  cases call with
  | setSubnodeOwner node label owner =>
    refine .insert (fun key : Address × Node => .owner key.1 key.2) .account s.owners
      (target, Naming.subnode node label) owner (fun _ => rfl) (fun _ => rfl) fun other hother => ?_
    cases other with
    | owner registry node' => exact absurd rfl (hother (registry, node'))
    | _ => rfl
  | setResolver node resolver =>
    refine .insert (fun key : Address × Node => .resolver key.1 key.2) .account s.resolvers
      (target, node) resolver (fun _ => rfl) (fun _ => rfl) fun other hother => ?_
    cases other with
    | resolver registry node' => exact absurd rfl (hother (registry, node'))
    | _ => rfl
  | setInterface node interfaceId implementer =>
    refine .insert (fun key : Address × Node × InterfaceId => .interface key.1 key.2.1 key.2.2)
      .account s.interfaces (target, node, interfaceId) implementer (fun _ => rfl) (fun _ => rfl)
      fun other hother => ?_
    cases other with
    | interface target' node' interfaceId' =>
      exact absurd rfl (hother (target', node', interfaceId'))
    | _ => rfl
  | addController controller =>
    refine .insert .controllers .accounts s.controllers _ _ (fun _ => rfl) (fun _ => rfl)
      fun other hother => ?_
    cases other with
    | controllers registrar => exact absurd rfl (hother registrar)
    | _ => rfl

/-- The owner before is the one of some state `s`, from which `t` may have come by a call. -/
theorem wrote_delay (s t : State) (target : Address) (call : Call) (lag : Nat) :
    Wrote t (overdue s target lag call) (t.delay lag (s.ownerChange? target call)) := by
  cases call with
  | setSubnodeOwner node label owner =>
    dsimp only [overdue, State.ownerChange?, State.delay]
    split
    · exact .refl t
    · refine .insert (fun key : Address × Node => .stale key.1 key.2) .stale t.stale
        (target, Naming.subnode node label) _ (fun _ => rfl) (fun _ => rfl) fun other hother => ?_
      cases other with
      | stale registry node' => exact absurd rfl (hother (registry, node'))
      | _ => rfl
  | _ => exact .refl t

theorem wrote_perform (s : State) (deployer : Address) (lag : Nat) (request : Request) :
    Wrote s (effect s deployer lag request) (s.perform deployer lag request) := by
  cases request with
  | create c => exact wrote_produce s deployer c lag
  | call target call => exact (wrote_apply s target call).trans (wrote_delay s _ target call lag)

/-- **All that an accepted request writes.** -/
theorem Recorded.wrote (h : Recorded deployer lag request s s' receipt) :
    Wrote s (account s receipt ++ if receipt.success then effect s deployer lag request else [])
      s' := by
  obtain ⟨hsubmissions, hblock, -⟩ := account_perform s deployer lag request
  rw [h.state]
  cases receipt.success with
  | false => exact (wrote_count s).trans (wrote_keep s.count receipt)
  | true =>
    have haccount := (wrote_count (s.perform deployer lag request)).trans (wrote_keep _ receipt)
    rw [hsubmissions, hblock] at haccount
    exact (wrote_perform s deployer lag request).trans haccount

/-! ## New entries -/

/-- The contract that a request made, as its receipt tells. -/
def made? (receipt : Receipt) : Request → Option Creation
  | .create c => if receipt.success then some c else none
  | .call .. => none

theorem made?_eq_some {c : Creation} (h : made? receipt request = some c) :
    request = .create c ∧ receipt.success = true := by
  cases request with
  | create c' =>
    rw [made?] at h
    split at h
    · next hsuccess =>
      cases h
      exact ⟨rfl, hsuccess⟩
    · cases h
  | call target call => cases h

/-- One submission, one block and one receipt. -/
theorem Recorded.account (h : Recorded deployer lag request s s' receipt) :
    s'.submissions = s.submissions + 1 ∧ s'.block = s.block + 1 ∧
      s'.receipts = s.receipts.insert receipt.transaction receipt := by
  rw [h.state]
  cases receipt.success with
  | false => exact ⟨rfl, rfl, rfl⟩
  | true =>
    obtain ⟨hsubmissions, hblock, hreceipts⟩ := account_perform s deployer lag request
    exact ⟨congrArg (· + 1) hsubmissions, congrArg (· + 1) hblock,
      congrArg (Assoc.insert · receipt.transaction receipt) hreceipts⟩

/-- One contract, if one was made, at the address of the next nonce. -/
theorem Recorded.contracts (h : Recorded deployer lag request s s' receipt) :
    match made? receipt request with
    | some c => s'.nonce = s.nonce + 1 ∧ s'.contracts =
        s.contracts.insert (deployer.ofCreation s.nonce) ⟨c.contract, deployer, c.args⟩
    | none => s'.nonce = s.nonce ∧ s'.contracts = s.contracts := by
  rw [h.state]
  cases request with
  | create c =>
    rw [made?]
    cases receipt.success with
    | false => exact ⟨rfl, rfl⟩
    | true => exact ⟨rfl, rfl⟩
  | call target call =>
    have hholdings := holdings_delay (s.apply target call) lag (s.ownerChange? target call)
    cases receipt.success with
    | false => exact ⟨rfl, rfl⟩
    | true =>
      refine ⟨(congrArg State.nonce hholdings).trans ?_,
        (congrArg State.contracts hholdings).trans (contracts_apply s target call)⟩
      cases call <;> rfl

/-- **What an event does to the account**: nothing, like all but submissions that are accepted, or
one entry. -/
inductive Turn (deployer : Address) (w w' : World) : Event → Prop where
  | still {e : Event}
      (hrefused : ∀ request, e = .submit request →
        ∃ error, submit deployer request w = (.error error, w'))
      (hsettled : w'.state.settled = w.state.settled) : Turn deployer w w' e
  | recorded {request : Request} {receipt : Receipt}
      (hsubmit : submit deployer request w = (.ok receipt.transaction, w'))
      (hrecorded : Recorded deployer w.faults.lag request w.state w'.state receipt) :
      Turn deployer w w' (.submit request)

theorem turn_of_step (deployer : Address) (w : World) (e : Event) :
    Turn deployer w (w.step deployer e) e := by
  cases e with
  | submit request =>
    change Turn deployer w (submit deployer request w).2 _
    rcases hsubmit : submit deployer request w with ⟨error | transaction, w'⟩
    · refine .still ?_ (congrArg (·.state.settled) (submit_eq_error hsubmit))
      rintro _ ⟨⟩
      exact ⟨error, hsubmit⟩
    · obtain ⟨-, receipt, rfl, hrecorded⟩ := recorded_of_submit hsubmit
      exact .recorded hsubmit hrecorded
  | await transaction limit =>
    refine .still (fun _ h => by cases h) ?_
    exact congrArg (·.state.settled) (stateAfter_await transaction limit w)
  | read registry node =>
    refine .still (fun _ h => by cases h) ?_
    exact congrArg World.state (settled_owner w registry node)
  | set switch => exact .still (fun _ h => by cases h) rfl

/-- **The account is kept in order**: receipts are under the hashes of the numbers counted so far,
and contracts at the addresses of the nonces used so far. -/
structure Keyed (deployer : Address) (s : State) : Prop where
  receipts : ∀ transaction, s.receipts.get? transaction ≠ none →
    ∃ n < s.submissions, transaction = transactionHash (n + 1)
  contracts : ∀ address, s.contracts.get? address ≠ none →
    ∃ j < s.nonce, address = deployer.ofCreation j

theorem keyed_empty (deployer : Address) : Keyed deployer {} where
  receipts _ h := absurd rfl h
  contracts _ h := absurd rfl h

theorem Recorded.keyed (h : Recorded deployer lag request s s' receipt)
    (hkeyed : Keyed deployer s) : Keyed deployer s' := by
  obtain ⟨hsubmissions, -, hreceipts⟩ := h.account
  have hcontracts := h.contracts
  constructor
  case receipts =>
    intro transaction hfound
    rw [hreceipts, Assoc.get?_insert] at hfound
    rw [hsubmissions]
    split at hfound
    · next hsame => exact ⟨s.submissions, Nat.lt_succ_self _, hsame.symm.trans h.transaction⟩
    · obtain ⟨n, hn, hkey⟩ := hkeyed.receipts transaction hfound
      exact ⟨n, Nat.lt_succ_of_lt hn, hkey⟩
  case contracts =>
    intro address hfound
    cases hmade : made? receipt request with
    | none =>
      rw [hmade] at hcontracts
      obtain ⟨hnonce, hsame⟩ := hcontracts
      rw [hsame] at hfound
      rw [hnonce]
      exact hkeyed.contracts address hfound
    | some c =>
      rw [hmade] at hcontracts
      obtain ⟨hnonce, hinsert⟩ := hcontracts
      rw [hinsert, Assoc.get?_insert] at hfound
      rw [hnonce]
      split at hfound
      · next hsame => exact ⟨s.nonce, Nat.lt_succ_self _, hsame.symm⟩
      · obtain ⟨j, hj, hkey⟩ := hkeyed.contracts address hfound
        exact ⟨j, Nat.lt_succ_of_lt hj, hkey⟩

theorem Turn.keyed (h : Turn deployer w w' e) (hkeyed : Keyed deployer w.state) :
    Keyed deployer w'.state := by
  cases h with
  | still _ hsettled =>
    -- neither part of the account is about stale reads
    have hkept : Keyed deployer w'.state.settled := hsettled ▸ ⟨hkeyed.receipts, hkeyed.contracts⟩
    exact ⟨hkept.receipts, hkept.contracts⟩
  | recorded _ hrecorded => exact hrecorded.keyed hkeyed

theorem keyed_play (deployer : Address) (history : List Event) :
    Keyed deployer (World.play deployer {} history).state := by
  induction history using List.reverseRecOn with
  | nil => exact keyed_empty deployer
  | append_singleton earlier e ih =>
    rw [World.play_append]
    exact (turn_of_step deployer _ e).keyed ih

/-- A hash that no earlier number has is not in the account. -/
theorem Keyed.receipt_eq_none (h : Keyed deployer s) {transaction : Digest}
    (hdistinct : ∀ n < s.submissions, transactionHash (n + 1) ≠ transaction) :
    s.receipts.get? transaction = none := by
  by_contra hfound
  obtain ⟨n, hn, hkey⟩ := h.receipts transaction hfound
  exact hdistinct n hn hkey.symm

theorem Keyed.contract_eq_none (h : Keyed deployer s) {address : Address}
    (hdistinct : ∀ j < s.nonce, deployer.ofCreation j ≠ address) :
    s.contracts.get? address = none := by
  by_contra hfound
  obtain ⟨j, hj, hkey⟩ := h.contracts address hfound
  exact hdistinct j hj hkey.symm

/-! ## The frame of a request -/

/-- **What a request does to the ledger**, which answers it and is left in the world `w'`. -/
structure Framed (deployer : Address) (request : Request) (w w' : World)
    (answer : Except LedgerError Digest) : Prop where
  /-- Only creations are refused, and nothing comes of it. -/
  refused : ∀ error, answer = .error error → (∃ c, request = .create c) ∧ w' = w
  /-- A request that is not refused writes to the account, and its effect if it does not revert. -/
  accepted : ∀ transaction, answer = .ok transaction → w'.faults = w.faults ∧
    ∃ receipt, receipt.transaction = transaction ∧ receipt.block = w.state.block + 1 ∧
      Wrote w.state (account w.state receipt ++
        if receipt.success then effect w.state deployer w.faults.lag request else []) w'.state
  /-- The receipt is a new one, unless two numbers have the same digest. -/
  newReceipt : ∀ transaction, answer = .ok transaction →
    (∀ n < w.state.submissions, transactionHash (n + 1) ≠ transaction) →
    w.state.content (.receipt transaction) = .receipt none
  /-- A contract that is made is a new one, unless two nonces have the same address. -/
  newContract : (∀ j < w.state.nonce, deployer.ofCreation j ≠ deployer.ofCreation w.state.nonce) →
    w.state.content (.contract (deployer.ofCreation w.state.nonce)) = .contract none

theorem framed_submit (deployer : Address) (history : List Event) (request : Request) :
    Framed deployer request (World.play deployer {} history)
      (submit deployer request (World.play deployer {} history)).2
      (submit deployer request (World.play deployer {} history)).1 := by
  have hkeyed := keyed_play deployer history
  generalize World.play deployer {} history = w at hkeyed
  constructor
  case refused => exact fun error hanswer => refused_of_submit (Prod.ext hanswer rfl)
  case accepted =>
    intro transaction hanswer
    obtain ⟨hfaults, receipt, htransaction, hrecorded⟩ :=
      recorded_of_submit (Prod.ext hanswer rfl : submit deployer request w = (.ok transaction, _))
    exact ⟨hfaults, receipt, htransaction, hrecorded.block, hrecorded.wrote⟩
  case newReceipt =>
    exact fun transaction _ hdistinct => congrArg _ (hkeyed.receipt_eq_none hdistinct)
  case newContract => exact fun hdistinct => congrArg _ (hkeyed.contract_eq_none hdistinct)

end Rollout.Simulated
