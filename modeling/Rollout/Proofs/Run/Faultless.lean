import Rollout.Proofs.Run.Position
import Rollout.Proofs.Run.Rehearsal

/-!
# Proofs/Run/Faultless — deployments on a ledger without faults

A ledger whose only fault is that it lags carries out every creation.  On such a ledger nothing stops
a run that is not cancelled from deploying all components of a checked plan: their names are new, and
what they refer to was deployed before them (`deployed_of_faultless`).
-/

namespace Rollout.Run

open Simulated (World State)

variable {deployer : Address} {lag : Nat} {plan : Plan} {start : Registry} {s t t' : Session World}
  {earlier later : List Component} {c : Component} {p : Progress}

/-- A creation on a ledger without faults has a receipt at once. -/
theorem transact_of_create (deployer : Address) (hidle : Idle s)
    (hfaults : s.ledger.faults = { lag }) (c : Creation) (timeoutSecs : Nat)
    (operation : Operation) (refusal : LedgerError → DeployError) :
    ∃ receipt s', transact (Simulated.ledger deployer) timeoutSecs operation (.create c) refusal s =
        (.ok receipt, s') ∧ receipt.success = true ∧
      receipt.contractAddress = some (deployer.ofCreation s.ledger.state.nonce) := by
  obtain ⟨receipt, hreceipt, hsuccess, haddress⟩ :=
    Simulated.receipt_create s.ledger.state deployer c
  have hsubmit : Simulated.submit deployer (.create c) s.ledger =
      (.ok (Simulated.transactionHash (s.ledger.state.create deployer c false).submissions),
        { s.ledger with state := s.ledger.state.create deployer c false }) := by
    simp [Simulated.submit, hfaults]
  exact ⟨receipt, _, transact_of_submit hidle hsubmit (by rw [hfaults]) hreceipt, hsuccess, haddress⟩

/-- While components are deployed on a ledger without faults. -/
structure Flawless (deployer : Address) (lag : Nat) (plan : Plan) (start : Registry)
    (s : Session World) (earlier : List Component) (p : Progress) (t : Session World) : Prop where
  idle : Idle t
  current : t.ledger.state.stale = {}
  standing : AfterComponents (Simulated.ledger deployer) plan start s earlier p t
  built : Built deployer start { lag } earlier p t

theorem Flawless.next {settings : Settings} {address : Address} {extended : Registry}
    (h : Flawless deployer lag plan start s earlier p t)
    (hdistinct : ∀ i j, i < plan.components.length → j < plan.components.length →
      deployer.ofCreation i = deployer.ofCreation j → i = j)
    (hsplit : plan.components = earlier ++ c :: later)
    (hdeployed : Deployed (Simulated.ledger deployer) settings.confirmation.timeoutSecs c p.registry
      t (.ok (address, extended)) t') :
    Flawless deployer lag plan start s (earlier ++ [c])
      ⟨extended, p.assignments, some s!"deployed {c.name}"⟩ t' := by
  obtain ⟨creation, receipt, -, htransact, -⟩ := transact_of_deployed hdeployed
  refine ⟨(blind_transact ..).idle h.idle htransact, ?_, h.standing.next hdeployed,
    h.built.next hdistinct hsplit hdeployed _⟩
  rcases ledger_of_transact htransact with hsame | hsubmitted
  · rw [hsame, h.current]
  · rw [hsubmitted, Simulated.stale_create, h.current]

/-- The next component of a checked plan does not fail. -/
theorem Flawless.not_failed {timeoutSecs : Nat} {e : DeployError}
    (h : Flawless deployer lag plan start s earlier p t) (hchecked : plan.Checked)
    (hstart : ∀ c ∈ plan.components, start.contains c.name = false)
    (hsplit : plan.components = earlier ++ c :: later) :
    ¬ Deployed (Simulated.ledger deployer) timeoutSecs c p.registry t (.error e) t' := by
  intro hfailed
  obtain ⟨made, hshows, -⟩ := h.standing.account
  generalize hr : Except.error e = r at hfailed
  cases hfailed with
  | duplicate hpresent =>
    rw [contains_eq_true_iff, hshows.names] at hpresent
    rcases List.mem_append.1 hpresent with hold | hnew
    · have hmem : c ∈ plan.components := by simp [hsplit]
      rw [← contains_eq_true_iff, hstart c hmem] at hold
      cases hold
    · exact hchecked.name_notMem hsplit hnew
  | unresolved hfresh hcreation =>
    obtain ⟨name, hname, hmissing, -⟩ := creationOf_eq_error hcreation
    exact hshows.find?_ne_none (hchecked.references hsplit name hname) hmissing
  | @sent creation outcome _ hfresh hcreation htransact =>
    obtain ⟨receipt, u, hsent, hsuccess, haddress⟩ :=
      transact_of_create deployer h.idle h.built.1 creation timeoutSecs (.creation c.name)
        (creationError c.name)
    cases hsent.symm.trans htransact
    have hcreated : created p.registry c.name receipt = .error e := hr.symm
    simp [created, createdAddress, hsuccess, haddress, Except.map] at hcreated

/-- **All components of a checked plan are deployed**, if nothing cancels the run and the ledger
has no other fault than that it lags. -/
theorem deployed_of_faultless {settings : Settings} (hchecked : plan.Checked) (hidle : Idle s)
    (hfaults : s.ledger.faults = { lag }) (hfresh : s.ledger.state = {})
    (hstart : ∀ c ∈ plan.components, start.contains c.name = false)
    (hdistinct : ∀ i j, i < plan.components.length → j < plan.components.length →
      deployer.ofCreation i = deployer.ofCreation j → i = j) :
    ∃ p t, inOrder (deployNext (Simulated.ledger deployer) settings) 0 plan.components
        { registry := start } s = (.ok p, t) ∧
      Flawless deployer lag plan start s plan.components p t := by
  have hnothing : Flawless deployer lag plan start s [] { registry := start } s :=
    ⟨hidle, by rw [hfresh], afterComponents_nil, hfaults ▸ built_nil hfresh⟩
  have hstep : ∀ {earlier c later p t p' t'}, plan.components = earlier ++ c :: later →
      Flawless deployer lag plan start s earlier p t →
      deployNext (Simulated.ledger deployer) settings earlier.length c p t = (.ok p', t') →
      Flawless deployer lag plan start s (earlier ++ [c]) p' t' := by
    intro earlier c later p t p' t' hsplit h hnext
    rcases deployNext_cases hnext with ⟨address, registry, hp, hdeployed⟩ | ⟨e, hp, -⟩ <;> cases hp
    exact h.next hdistinct hsplit hdeployed
  rcases inOrder_cases (deployNext (Simulated.ledger deployer) settings) hnothing hstep with
    ⟨p, t, hrun, hp⟩ | ⟨earlier, c, later, p, t, f, t', hsplit, hp, hfail, -⟩
  · exact ⟨p, t, hrun, hp⟩
  · rcases deployNext_cases hfail with ⟨_, _, hf, -⟩ | ⟨e, -, hfailed⟩
    · cases hf
    · exact absurd hfailed (hp.not_failed hchecked hstart hsplit)

end Rollout.Run
