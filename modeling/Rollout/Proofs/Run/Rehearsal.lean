import Rollout.Proofs.Ledger.Reads
import Rollout.Proofs.Run.Idle
import Rollout.Proofs.Run.Report

/-!
# Proofs/Run/Rehearsal — runs on the ledger in memory that nothing cancels

While no token fires and confirmations come, the ledger in memory decides everything: an accepted
request is settled at once, as its receipt says.  So a creation without a fault succeeds, and a call
succeeds exactly if the ledger carries it out.
-/

namespace Rollout.Run

open Simulated (World State Executed stateAfter_await)

variable {deployer : Address} {s : Session World}

/-! ## Transactions -/

/-- The session after an accepted request. -/
def accepted (s : Session World) (request : Request) (w : World) (transaction : Digest) :
    Session World :=
  { s with
    ledger := w
    submissions := s.submissions ++ [⟨request, false, .ok transaction, none⟩] }

/-- The session after an accepted request and the receipt for it. -/
def answered (s : Session World) (request : Request) (w : World) (transaction : Digest)
    (receipt : Receipt) : Session World :=
  { s with
    ledger := w
    submissions := s.submissions ++ [⟨request, false, .ok transaction, some (.ok receipt)⟩] }

section Transactions

variable {s' : Session World} {timeoutSecs : Nat} {operation : Operation} {request : Request}
  {refusal : LedgerError → DeployError} {w : World} {transaction : Digest} {receipt : Receipt}
  {outcome : Except DeployError Receipt}

/-- A transaction leaves the ledger alone, or submits its request. -/
theorem ledger_of_transact
    (h : transact (Simulated.ledger deployer) timeoutSecs operation request refusal s =
      (outcome, s')) :
    s'.ledger = s.ledger ∨ s'.ledger = (Simulated.submit deployer request s.ledger).2 := by
  cases transacted_of_transact h with
  | unsent hledger hjournal => exact .inl hledger
  | refused hsubmit hjournal => exact .inl (Simulated.submit_eq_error hsubmit)
  | @unanswered transaction state _ _ hsubmit herror hledger hjournal =>
    have hstate : state = (Simulated.submit deployer request s.ledger).2 :=
      (congrArg Prod.snd hsubmit).symm
    rcases hledger with hledger | ⟨limit, hledger⟩
    · exact .inr (hledger.trans hstate)
    · exact .inr (hledger.trans ((stateAfter_await transaction limit state).trans hstate))
  | @answered transaction state limit _ _ _ hsubmit hawait hjournal =>
    have hstate : state = (Simulated.submit deployer request s.ledger).2 :=
      (congrArg Prod.snd hsubmit).symm
    have hafter := congrArg stateAfter hawait
    exact .inr (hafter.symm.trans ((stateAfter_await transaction limit state).trans hstate))

/-- An outcome tells that confirmations come. -/
theorem stalled_of_transact
    (h : transact (Simulated.ledger deployer) timeoutSecs operation request refusal s =
      (.ok receipt, s')) : s.ledger.faults.stalled = false := by
  generalize hr : Except.ok receipt = r at h
  cases transacted_of_transact h with
  | @answered transaction state limit elapsed answer _ hsubmit hawait hjournal =>
    have hfaults : state.faults = s.ledger.faults :=
      (congrArg (·.2.faults) hsubmit).symm.trans (Simulated.faults_submit ..)
    have hsettled : Simulated.await transaction limit state = .settled elapsed answer s'.ledger :=
      hawait
    rw [Simulated.await, hfaults] at hsettled
    cases hstalled : s.ledger.faults.stalled with
    | false => rfl
    | true => simp [hstalled] at hsettled
  | _ => cases hr

theorem settle?_of_receipt (limit : Nat) (hstalled : s.ledger.faults.stalled = false)
    (hreceipt : s.ledger.state.receipts.get? transaction = some receipt) :
    settle? (Simulated.ledger deployer) transaction limit s =
      (some (0, .ok receipt), s.ledger) := by
  have hawait : (Simulated.ledger deployer).await transaction limit s.ledger =
      .settled 0 (.ok receipt) s.ledger := by
    change Simulated.await transaction limit s.ledger = _
    rw [Simulated.await_of_receipt limit hreceipt, hstalled]
    rfl
  rw [settle?, hawait]
  simp

/-- An accepted request is settled at once, by the receipt that the ledger keeps of it. -/
theorem transact_of_submit (hidle : Idle s)
    (hsubmit : Simulated.submit deployer request s.ledger = (.ok transaction, w))
    (hstalled : w.faults.stalled = false)
    (hreceipt : w.state.receipts.get? transaction = some receipt) :
    transact (Simulated.ledger deployer) timeoutSecs operation request refusal s =
      (.ok receipt, answered s request w transaction receipt) := by
  have hsent : submit (Simulated.ledger deployer) request refusal s =
      (.ok transaction, accepted s request w transaction) := by
    rw [submit, hidle.submit]
    change (((Simulated.submit deployer request s.ledger).1.mapError refusal), _) = _
    rw [show (Simulated.ledger deployer).submit = Simulated.submit deployer from rfl, hsubmit]
    rfl
  have hwait : Idle (accepted s request w transaction) := hidle
  have hconfirm : confirm (Simulated.ledger deployer) transaction timeoutSecs operation
      (accepted s request w transaction) =
        (.ok receipt, answered s request w transaction receipt) := by
    have hjournal : ((accepted s request w transaction).settle (.ok receipt)).submissions = _ :=
      submissions_settle _ rfl
    rw [hwait.confirm, settle?_of_receipt _ hstalled hreceipt]
    dsimp only
    rw [hjournal]
    rfl
  rw [transact, bind_of_ok _ (hidle.ensureNotCancelled operation), bind_of_ok _ hsent, hconfirm]

end Transactions

/-! ## Calls -/

section Calls

variable (d : Desk) {target : Address} {call : Call} (role : AssignmentRole)
  (path : Option String) (assigned : Address)

/-- The ledger after a call, whether it was carried out or not. -/
def calledWorld (deployer target : Address) (call : Call) (w : World) : World :=
  (Simulated.submit deployer (.call target call) w).2

/-- A call is made and answered, and its record is read off the receipt. -/
theorem execute_of_idle (hidle : Idle s) (hstalled : s.ledger.faults.stalled = false) :
    ∃ transaction receipt,
      execute (Simulated.ledger deployer) d target call role path assigned s =
        (recordOf target call role path assigned receipt,
          answered s (.call target call) (calledWorld deployer target call s.ledger) transaction
            receipt) ∧
      (receipt.success = true ↔ ∃ changed,
        s.ledger.state.holdings.execute deployer target call = .ok changed) := by
  obtain ⟨transaction, receipt, hsubmit, hreceipt, hsuccess⟩ :=
    Simulated.receipt_of_call deployer target call s.ledger
  have hstalled' : (calledWorld deployer target call s.ledger).faults.stalled = false := by
    rw [calledWorld, Simulated.faults_submit, hstalled]
  have htransact : transact (Simulated.ledger deployer) d.timeoutSecs (.call call)
      (.call target call) (callError call.name target) s = (.ok receipt, _) :=
    transact_of_submit hidle hsubmit hstalled' hreceipt
  refine ⟨transaction, receipt, ?_, hsuccess⟩
  rw [execute, bind_of_ok _ htransact]
  rfl

/-- A call that the ledger carries out leaves a record. -/
theorem execute_of_ok (hidle : Idle s) (hstalled : s.ledger.faults.stalled = false)
    {changed : State}
    (h : s.ledger.state.holdings.execute deployer target call = .ok changed) :
    ∃ record t, execute (Simulated.ledger deployer) d target call role path assigned s =
        (.ok record, t) ∧ Idle t ∧ t.ledger = calledWorld deployer target call s.ledger := by
  obtain ⟨transaction, receipt, hexecute, hsuccess⟩ :=
    execute_of_idle d role path assigned hidle hstalled
  rw [recordOf, if_pos (hsuccess.2 ⟨changed, h⟩)] at hexecute
  exact ⟨_, _, hexecute, hidle, rfl⟩

/-- A call that the ledger does not carry out is rejected, and leaves nothing but its submission. -/
theorem execute_of_error (hidle : Idle s) (hstalled : s.ledger.faults.stalled = false)
    {revert : Simulated.Revert}
    (h : s.ledger.state.holdings.execute deployer target call = .error revert) :
    ∃ reason t, execute (Simulated.ledger deployer) d target call role path assigned s =
        (.error (.assignmentRejected call.name target (.reverted reason)), t) ∧
      t.ledger.state.holdings = s.ledger.state.holdings ∧
      t.submissions.length = s.submissions.length + 1 := by
  obtain ⟨transaction, receipt, hexecute, hsuccess⟩ :=
    execute_of_idle d role path assigned hidle hstalled
  have hfailed : ¬ receipt.success = true := by
    rintro hcarried
    obtain ⟨changed, hchanged⟩ := hsuccess.1 hcarried
    cases h.symm.trans hchanged
  rw [recordOf, if_neg hfailed] at hexecute
  refine ⟨_, _, hexecute, ?_, by simp [answered]⟩
  have hholdings := Simulated.holdings_call s.ledger.state deployer target call s.ledger.faults.lag
  rw [h] at hholdings
  exact hholdings

end Calls

/-! ## Reads -/

/-- A read of an owner, told by what the ledger shows. -/
theorem owner_of_read (deployer : Address) {registry shown : Address} {node : Node} {state : State}
    (hidle : Idle s) (hreadable : s.ledger.faults.unreadable = false)
    (h : s.ledger.state.read registry node = (shown, state)) :
    s.owner (Simulated.ledger deployer) registry node =
      (.ok shown, { s with ledger := { s.ledger with state }, reads := s.reads + 1 }) := by
  have howner : (Simulated.ledger deployer).owner registry node s.ledger =
      ⟨.ok shown, 0, { s.ledger with state }⟩ := Simulated.owner_of_read hreadable h
  rw [hidle.owner, howner]
  rfl

/-! ## The check beforehand -/

section Check

variable {σ : Type} {l : Ledger σ} {d : Desk} {t t' : Session σ} {node : Node}

theorem ensureAuthority_of_unchecked (hcheck : d.precheck = false) (name : String) :
    ensureAuthority l d name node t = (.ok (), t) := by
  rw [ensureAuthority, hcheck]
  rfl

/-- The check goes by the owner that a read shows. -/
theorem ensureAuthority_of_owner {owner : Address} (hcheck : d.precheck = true)
    (hread : t.owner l d.registry node = (.ok owner, t')) (name : String) :
    ensureAuthority l d name node t =
      (if owner = l.deployer then .ok ()
        else .error (.assignmentRejected name d.registry (.notOwner node owner)), t') := by
  rw [ensureAuthority, if_pos hcheck]
  simp only [hread]
  split <;> rfl

end Check

end Rollout.Run
