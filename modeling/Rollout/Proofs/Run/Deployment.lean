import Rollout.Proofs.Run.References
import Rollout.Proofs.Run.Waiting

/-!
# Proofs/Run/Deployment — what a transaction and a deployment can do

A transaction is not sent, refused, lost sight of, or answered (`Transacted`, one case per way it
can end).  A deployment fails before anything happens, or it is the transaction of its creation
(`Deployed`).
-/

namespace Rollout.Run

variable {σ : Type}

/-! ## One transaction -/

/-- How a request ends: it is not sent, refused, without an outcome, or answered. -/
inductive Transacted (l : Ledger σ) (timeoutSecs : Nat) (operation : Operation) (request : Request)
    (refusal : LedgerError → DeployError) (s : Session σ) :
    Except DeployError Receipt → Session σ → Prop where
  | unsent {s' : Session σ} (hledger : s'.ledger = s.ledger)
      (hjournal : s'.submissions = s.submissions) :
      Transacted l timeoutSecs operation request refusal s (.error (.cancelled operation none)) s'
  | refused {error : LedgerError} {s' : Session σ}
      (hsubmit : l.submit request s.ledger = (.error error, s'.ledger))
      (hjournal : s'.submissions = s.submissions ++ [⟨request, false, .error error, none⟩]) :
      Transacted l timeoutSecs operation request refusal s (.error (refusal error)) s'
  | unanswered {transaction : Digest} {state : σ} {error : DeployError} {s' : Session σ}
      (hsubmit : l.submit request s.ledger = (.ok transaction, state))
      (herror : error = .cancelled operation (some transaction) ∨
        error = .confirmationTimeout operation timeoutSecs (some transaction) none)
      (hledger : s'.ledger = state ∨
        ∃ limit, s'.ledger = stateAfter (l.await transaction limit state))
      (hjournal : s'.submissions = s.submissions ++ [⟨request, false, .ok transaction, none⟩]) :
      Transacted l timeoutSecs operation request refusal s (.error error) s'
  | answered {transaction : Digest} {state : σ} {limit elapsed : Nat}
      {answer : Except LedgerError Receipt} {s' : Session σ}
      (hsubmit : l.submit request s.ledger = (.ok transaction, state))
      (hawait : l.await transaction limit state = .settled elapsed answer s'.ledger)
      (hjournal : s'.submissions =
        s.submissions ++ [⟨request, false, .ok transaction, some answer⟩]) :
      Transacted l timeoutSecs operation request refusal s (answer.mapError .ledger) s'

section Transact

variable {l : Ledger σ} {timeoutSecs : Nat} {operation : Operation} {request : Request}
  {refusal : LedgerError → DeployError} {s s' : Session σ}

theorem submissions_settle {earlier : List Submission} {x : Submission}
    (answer : Except LedgerError Receipt) (h : s.submissions = earlier ++ [x]) :
    (s.settle answer).submissions = earlier ++ [x.settle answer] := by
  rw [Session.settle, h, List.modify_eq_take_cons_drop (by simp)]
  simp

theorem ensureNotCancelled_cases {r : Except DeployError Unit}
    (h : ensureNotCancelled operation s = (r, s')) :
    s' = s.look ∧
      (r = .error (.cancelled operation none) ∨ s.look.token.fired = false ∧ r = .ok ()) := by
  rw [ensureNotCancelled] at h
  split at h <;> cases h
  · exact ⟨rfl, .inl rfl⟩
  · next hfired => exact ⟨rfl, .inr ⟨by simpa using hfired, rfl⟩⟩

theorem submit_cases {r : Except DeployError Digest} (h : submit l request refusal s = (r, s')) :
    ∃ answer, l.submit request s.ledger = (answer, s'.ledger) ∧ r = answer.mapError refusal ∧
      s'.submissions = s.submissions ++ [⟨request, s.token.fired, answer, none⟩] := by
  cases h
  exact ⟨(l.submit request s.ledger).1, rfl, rfl, rfl⟩

/-- Past the look at the token, a request is submitted and waited for. -/
theorem transacted_of_submit {r : Except DeployError Receipt} (hfired : s.look.token.fired = false)
    (h : (submit l request refusal >>= fun transaction =>
      confirm l transaction timeoutSecs operation) s.look = (r, s')) :
    Transacted l timeoutSecs operation request refusal s r s' := by
  rcases bind_cases h with ⟨transaction, t, hsend, hconfirm⟩ | ⟨e, hsend, rfl⟩
  · obtain ⟨answer, hsubmit, hr, hjournal⟩ := submit_cases hsend
    rw [hfired] at hjournal
    cases answer with
    | error error => cases hr
    | ok accepted =>
      obtain rfl : transaction = accepted := Except.ok.inj hr
      cases awaited_of_confirm hconfirm with
      | answered hawait hsettled =>
        exact .answered hsubmit hawait (hsettled.trans (submissions_settle _ hjournal))
      | unanswered herror hledger hsame =>
        exact .unanswered hsubmit herror hledger (hsame.trans hjournal)
  · obtain ⟨answer, hsubmit, hr, hjournal⟩ := submit_cases hsend
    rw [hfired] at hjournal
    cases answer with
    | error error =>
      obtain rfl : e = refusal error := Except.error.inj hr
      exact .refused hsubmit hjournal
    | ok accepted => cases hr

theorem transacted_of_transact {r : Except DeployError Receipt}
    (h : transact l timeoutSecs operation request refusal s = (r, s')) :
    Transacted l timeoutSecs operation request refusal s r s' := by
  rcases bind_cases h with ⟨_, t, hlook, h⟩ | ⟨e, hlook, rfl⟩
  · obtain ⟨rfl, hcancelled | ⟨hfired, -⟩⟩ := ensureNotCancelled_cases hlook
    · cases hcancelled
    · exact transacted_of_submit hfired h
  · obtain ⟨rfl, hcancelled | ⟨-, hok⟩⟩ := ensureNotCancelled_cases hlook
    · cases hcancelled
      exact .unsent rfl rfl
    · cases hok

end Transact

/-! ## Deployments -/

/-- The registry with the component that a receipt tells of. -/
def created (registry : Registry) (name : String) (receipt : Receipt) :
    Except DeployError (Address × Registry) :=
  (createdAddress name receipt).map fun address =>
    (address, ⟨registry.resources ++ [⟨name, address, receipt.transaction, receipt.block⟩]⟩)

theorem created_eq_ok {registry extended : Registry} {name : String} {receipt : Receipt}
    {address : Address} (h : created registry name receipt = .ok (address, extended)) :
    createdAddress name receipt = .ok address ∧
      extended = ⟨registry.resources ++ [⟨name, address, receipt.transaction, receipt.block⟩]⟩ := by
  obtain ⟨a, ha, heq⟩ := map_eq_ok h
  cases heq
  exact ⟨ha, rfl⟩

theorem createdAddress_eq_ok {name : String} {receipt : Receipt} {address : Address}
    (h : createdAddress name receipt = .ok address) :
    receipt.success = true ∧ receipt.contractAddress = some address := by
  rw [createdAddress] at h
  split at h
  · next hsuccess =>
    split at h <;> cases h
    next hcontract => exact ⟨hsuccess, hcontract⟩
  · cases h

theorem created_eq_error {registry : Registry} {name : String} {receipt : Receipt}
    {e : DeployError} (h : created registry name receipt = .error e) :
    ∃ fault, e = .deploymentFailed name fault := by
  have haddress : createdAddress name receipt = .error e := map_eq_error h
  rw [createdAddress] at haddress
  split at haddress
  · split at haddress <;> cases haddress
    exact ⟨_, rfl⟩
  · cases haddress
    exact ⟨_, rfl⟩

theorem pending_created {registry : Registry} {name : String} {receipt : Receipt} {e : DeployError}
    (h : created registry name receipt = .error e) : e.pending = none := by
  obtain ⟨fault, rfl⟩ := created_eq_error h
  rfl

theorem pending_creationError (name : String) (error : LedgerError) :
    (creationError name error).pending = none := by
  cases error <;> rfl

/-- A name that is not in the registry can be recorded. -/
theorem created_of_put {registry : Registry} {name : String} {receipt : Receipt} {s s' : Session σ}
    {r : Except DeployError (Address × Registry)} (hfresh : registry.contains name = false)
    (h : (do
      let address ← ofExcept (createdAddress name receipt)
      let extended ← ofExcept
        (registry.put { name, address, transaction := receipt.transaction, block := receipt.block })
      pure (address, extended) : Action σ (Address × Registry)) s = (r, s')) :
    r = created registry name receipt ∧ s' = s := by
  rcases ofExcept_bind_cases h with ⟨address, haddress, h⟩ | ⟨e, haddress, rfl, rfl⟩
  · have hput : registry.put ⟨name, address, receipt.transaction, receipt.block⟩ =
        .ok ⟨registry.resources ++ [⟨name, address, receipt.transaction, receipt.block⟩]⟩ := by
      rw [Registry.put, hfresh]
      rfl
    rw [hput] at h
    obtain ⟨rfl, rfl⟩ := Prod.mk.inj h
    simp [created, haddress, Except.map]
  · simp [created, haddress, Except.map]

/-- **What a deployment can do.**  It ends before anything happened, or it sends the creation of its
component and records what the receipt tells. -/
inductive Deployed (l : Ledger σ) (timeoutSecs : Nat) (c : Component) (registry : Registry)
    (s : Session σ) : Except DeployError (Address × Registry) → Session σ → Prop where
  | duplicate (hpresent : registry.contains c.name = true) :
      Deployed l timeoutSecs c registry s (.error (.duplicateName c.name)) s
  | unresolved {e : DeployError} (hfresh : registry.contains c.name = false)
      (hcreation : creationOf registry l.deployer c = .error e) :
      Deployed l timeoutSecs c registry s (.error e) s
  | sent {creation : Creation} {outcome : Except DeployError Receipt} {s' : Session σ}
      (hfresh : registry.contains c.name = false)
      (hcreation : creationOf registry l.deployer c = .ok creation)
      (htransact : transact l timeoutSecs (.creation c.name) (.create creation)
        (creationError c.name) s = (outcome, s')) :
      Deployed l timeoutSecs c registry s (outcome.bind (created registry c.name)) s'

theorem deployed_of_deploy {l : Ledger σ} {timeoutSecs : Nat} {c : Component} {registry : Registry}
    {s s' : Session σ} {r : Except DeployError (Address × Registry)}
    (h : deploy l timeoutSecs c registry s = (r, s')) :
    Deployed l timeoutSecs c registry s r s' := by
  rw [deploy] at h
  split at h
  · next hpresent =>
    obtain ⟨rfl, rfl⟩ : .error (.duplicateName c.name) = r ∧ s = s' := Prod.mk.inj h
    exact .duplicate hpresent
  · next hpresent =>
    have hfresh : registry.contains c.name = false := by simpa using hpresent
    rcases ofExcept_bind_cases h with ⟨creation, hcreation, h⟩ | ⟨e, hcreation, rfl, rfl⟩
    · rcases bind_cases h with ⟨receipt, t, htransact, h⟩ | ⟨e, htransact, rfl⟩
      · obtain ⟨rfl, rfl⟩ := created_of_put hfresh h
        exact .sent hfresh hcreation htransact
      · exact .sent hfresh hcreation htransact
    · exact .unresolved hfresh hcreation

/-- A deployment that went well was the transaction of its creation. -/
theorem transact_of_deployed {l : Ledger σ} {timeoutSecs : Nat} {c : Component}
    {registry extended : Registry} {address : Address} {s s' : Session σ}
    (h : Deployed l timeoutSecs c registry s (.ok (address, extended)) s') :
    ∃ creation receipt, creationOf registry l.deployer c = .ok creation ∧
      transact l timeoutSecs (.creation c.name) (.create creation) (creationError c.name) s =
        (.ok receipt, s') ∧ created registry c.name receipt = .ok (address, extended) := by
  generalize hr : Except.ok (address, extended) = r at h
  cases h with
  | @sent creation outcome _ hfresh hcreation htransact =>
    obtain ⟨receipt, rfl, -⟩ := bind_eq_ok (x := outcome) hr.symm
    exact ⟨creation, receipt, hcreation, htransact, rfl⟩
  | _ => cases hr

end Rollout.Run
