import Rollout.Proofs.Ledger.Settling
import Rollout.Proofs.Run.Admission
import Rollout.Proofs.Run.Fence
import Rollout.Proofs.Run.Polling

/-!
# Proofs/Run/Passage — what a run may rely on after a wait for an owner

A wait that polls ends well with a read that shows the owner, and if that is who owns the node, the
node is settled on the ledger in memory: every read shows the owner until the node gets another
(`Passed`).  So the check before an assignment lets its owner pass, and as the check goes by the
owner on record then, the ledger does what it is asked for (`Unopposed`).

The root of a registry that is not there yet is the one node that can get an owner without being
given away.  It belongs to nobody, so a wait for that ends well, and then the creation of the
registry makes it the creator's (`not_passed_unfounded`).
-/

namespace Rollout.Run

open Simulated (World State Event Granted SettledOn LeftAlone CreatedBy)

/-! ## Waits that end well -/

section Wait

variable {σ : Type} {l : Ledger σ} {p : PropagationPolicy} {e : Expectation} {s t : Session σ}
  {deadline left : Nat} {failure : Option LedgerError}

/-- A poll that ends well shows the owner at once or goes on after a pause. -/
theorem shown_or_next_of_poll (h : poll l p e deadline left failure s = (.ok (), t)) :
    s.owner l e.registry e.node = (.ok e.owner, t) ∨
      ∃ fewer failure' u, left = fewer + 1 ∧ Reads l s.ledger u.ledger ∧
        poll l p e deadline fewer failure' u = (.ok (), t) := by
  have hread : Quiet l s (s.owner l e.registry e.node).2 := .owner ..
  unfold poll at h
  dsimp only at h
  split at h
  · next hshows =>
    obtain ⟨-, rfl⟩ := Prod.mk.inj h
    exact .inl (Prod.ext (shows_eq_true_iff.1 hshows) rfl)
  · split at h
    · cases h
    · split at h
      · split at h <;> cases h
      · split at h
        · next u hpause =>
          cases pause_harmless (l := l) hpause with
          | ok hquiet => exact .inr ⟨_, _, u, rfl, (hread.trans hquiet).reads, h⟩
        · cases h

/-- **A poll that ends well ends with a read that shows the owner**, after other reads only. -/
theorem shown_of_poll (h : poll l p e deadline left failure s = (.ok (), t)) :
    ∃ u : Session σ, Reads l s.ledger u.ledger ∧ u.owner l e.registry e.node = (.ok e.owner, t) := by
  induction left generalizing failure s with
  | zero =>
    rcases shown_or_next_of_poll h with hshown | ⟨_, _, _, hleft, -, -⟩
    · exact ⟨s, .refl, hshown⟩
    · cases hleft
  | succ left ih =>
    rcases shown_or_next_of_poll h with hshown | ⟨_, _, u, hleft, hreads, hnext⟩
    · exact ⟨s, .refl, hshown⟩
    · cases hleft
      obtain ⟨v, hreads', hshown⟩ := ih hnext
      exact ⟨v, hreads.trans hreads', hshown⟩

end Wait

section Settled

variable {deployer : Address} {p : PropagationPolicy} {e : Expectation} {s t u : Session World}

/-- **A wait for the owner settles the node.** -/
theorem settledOn_of_await (hmode : p.mode = .poll)
    (howner : s.ledger.state.ownerOf e.registry e.node = e.owner)
    (h : awaitPropagation (Simulated.ledger deployer) p e s = (.ok (), t)) :
    SettledOn t.ledger.state e.registry e.node e.owner := by
  rw [awaitPropagation, hmode] at h
  obtain ⟨u, hreads, hshown⟩ := shown_of_poll h
  obtain ⟨hanswer, rfl⟩ := Prod.mk.inj hshown
  have hsame := Simulated.ownerOf_of_holdings (alike_of_reads hreads).holdings e.registry e.node
  exact .of_answer (hsame.trans howner) hanswer

/-- The contracts are the same after the wait, so the same account created them. -/
theorem createdBy_of_await (hcreated : CreatedBy deployer s.ledger.state)
    (h : awaitPropagation (Simulated.ledger deployer) p e s = (.ok (), t)) :
    CreatedBy deployer t.ledger.state := by
  cases awaitPropagation_harmless h with
  | ok hquiet =>
    have hsame := Simulated.contracts_of_holdings (alike_of_reads hquiet.reads).holdings
    rw [CreatedBy, hsame]
    exact hcreated

end Settled

/-! ## Assignments by the owner -/

section Assignments

variable {deployer : Address} {d : Desk} {s s' u : Session World} {name : String} {node : Node}
  {target assigned : Address} {call : Call} {role : AssignmentRole} {path : Option String}

/-- **Nothing stands against an assignment**: it is not rejected, and it is made unless it is
cancelled or its confirmation does not come. -/
structure Unopposed (x : Action World Assignment) (u : Session World) : Prop where
  unrejected : ∀ name target fault u', x u ≠ (.error (.assignmentRejected name target fault), u')
  made : Idle u → u.ledger.faults.stalled = false → ∃ record u', x u = (.ok record, u')

/-- A call made with authority has a receipt of success, whenever it is answered. -/
theorem success_of_granted {timeoutSecs : Nat} {operation : Operation}
    {refusal : LedgerError → DeployError} {receipt : Receipt}
    (hgranted : Granted s.ledger.state.holdings deployer target call)
    (h : transact (Simulated.ledger deployer) timeoutSecs operation (.call target call) refusal s =
      (.ok receipt, s')) : receipt.success = true := by
  have htransacted := transacted_of_transact h
  generalize hr : Except.ok receipt = r at htransacted
  cases htransacted with
  | @answered transaction state limit _ answer _ hsubmit hawait _ =>
    obtain rfl : answer = .ok receipt := mapError_eq_ok hr.symm
    obtain ⟨_, kept, hsent, hkept, hsuccess⟩ :=
      Simulated.receipt_of_call deployer target call s.ledger
    obtain ⟨rfl, rfl⟩ : _ ∧ _ := by simpa using hsent.symm.trans hsubmit
    have hsettled := (Simulated.await_of_receipt limit hkept).symm.trans hawait
    split at hsettled
    · cases hsettled
    · simp only [Confirmation.settled.injEq, Except.ok.injEq] at hsettled
      obtain ⟨-, rfl, -⟩ := hsettled
      exact hsuccess.2 ⟨_, Simulated.execute_of_granted hgranted⟩
  | _ => cases hr

/-- A call is never refused, so its transaction is not rejected. -/
theorem transact_unrejected {timeoutSecs : Nat} {operation : Operation}
    {refusal : LedgerError → DeployError} {other : Address} {fault : AssignmentFault} :
    transact (Simulated.ledger deployer) timeoutSecs operation (.call target call) refusal s ≠
      (.error (.assignmentRejected name other fault), s') := by
  intro h
  have htransacted := transacted_of_transact h
  generalize hr : Except.error _ = r at htransacted
  cases htransacted with
  | unsent => cases hr
  | refused hsubmit =>
    obtain ⟨_, _, hsent, -⟩ := Simulated.receipt_of_call deployer target call s.ledger
    cases hsent.symm.trans hsubmit
  | unanswered _ herror => rcases herror with rfl | rfl <;> cases hr
  | @answered _ _ _ _ answer => cases answer <;> cases hr

theorem execute_unrejected (d : Desk) {other : Address} {fault : AssignmentFault}
    (hgranted : Granted s.ledger.state.holdings deployer target call) :
    execute (Simulated.ledger deployer) d target call role path assigned s ≠
      (.error (.assignmentRejected name other fault), s') := by
  intro h
  rcases bind_cases h with ⟨receipt, u, htransact, hrecord⟩ | ⟨e, htransact, hrejected⟩
  · have hsuccess := success_of_granted hgranted htransact
    rw [recordOf, if_pos hsuccess] at hrecord
    cases hrecord
  · cases hrejected
    exact transact_unrejected htransact

/-- The check lets the owner of a settled node pass, and costs one read. -/
theorem ensureAuthority_of_settled (hcheck : d.precheck = true)
    (hsettled : SettledOn s.ledger.state d.registry node deployer)
    (hreadable : s.ledger.faults.unreadable = false) (name : String) :
    ∃ u, ensureAuthority (Simulated.ledger deployer) d name node s = (.ok (), u) ∧
      Simulated.Alike s.ledger u.ledger ∧ (Idle s → Idle u) := by
  have hread : s.owner (Simulated.ledger deployer) d.registry node =
      (.ok deployer, (s.owner (Simulated.ledger deployer) d.registry node).2) :=
    Prod.ext (hsettled.answer hreadable) rfl
  refine ⟨_, (ensureAuthority_of_owner hcheck hread name).trans (congrArg (·, _) (if_pos rfl)),
    Simulated.alike_owner d.registry node s.ledger, fun hidle => ?_⟩
  rw [hidle.owner]
  exact hidle

/-- **Nothing stands against an assignment by the owner of a settled node.** -/
theorem unopposed_of_settled (hcheck : d.precheck = true)
    (hsettled : SettledOn s.ledger.state d.registry node deployer)
    (hreadable : s.ledger.faults.unreadable = false)
    (hgranted : Granted s.ledger.state.holdings deployer target call) :
    Unopposed (guarded deployer name node target call role path assigned d) s := by
  obtain ⟨u, hpass, halike, hidle⟩ := ensureAuthority_of_settled hcheck hsettled hreadable name
  rw [← halike.holdings] at hgranted
  constructor
  case unrejected =>
    intro name' other fault s' h
    rw [guarded, bind_of_ok _ hpass] at h
    exact execute_unrejected d hgranted h
  case made =>
    intro hstart hstalled
    rw [← halike.faults] at hstalled
    obtain ⟨record, t, hexecute, -, -⟩ := execute_of_ok d role path assigned (hidle hstart) hstalled
      (Simulated.execute_of_granted hgranted)
    exact ⟨record, t, (bind_of_ok _ hpass).trans hexecute⟩

end Assignments

/-! ## What a wait is good for -/

section Passed

variable {deployer : Address} {p : PropagationPolicy} {e : Expectation} {s t u : Session World}
  {d : Desk}

/-- A session that finds the ledger later on: the node was left alone in the meantime, and reads
work. -/
structure Since (deployer : Address) (e : Expectation) (t u : Session World) : Prop where
  played : ∃ later, LeftAlone deployer e.registry e.node t.ledger later ∧
    u.ledger = t.ledger.play deployer later
  readable : u.ledger.faults.unreadable = false

/-- A desk of the account in the registry of an expectation, which is a contract.  The desk checks
beforehand, and the account itself is the owner that is expected. -/
structure Desk.Serves (d : Desk) (deployer : Address) (e : Expectation) (u : Session World) :
    Prop where
  owner : e.owner = deployer
  registry : d.registry = e.registry
  deployed : ∃ contract, u.ledger.state.contracts.get? e.registry = some contract
  precheck : d.precheck = true

/-- **What holds after a wait that ended well**, until the node gets another owner. -/
structure Passed (deployer : Address) (e : Expectation) (t : Session World) : Prop where
  /-- Every read shows the owner. -/
  reads : ∀ u, Since deployer e t u →
    (u.owner (Simulated.ledger deployer) e.registry e.node).1 = .ok e.owner
  /-- The account can bind a resolver to its node. -/
  resolver : ∀ u, Since deployer e t u → ∀ d : Desk, d.Serves deployer e u →
    ∀ path resolver, Naming.node path = e.node →
      Unopposed (bindResolver (Simulated.ledger deployer) d path resolver) u
  /-- The account can give children of its node away. -/
  subnode : ∀ u, Since deployer e t u → ∀ d : Desk, d.Serves deployer e u →
    ∀ parent label owner, Naming.node parent = e.node →
      Unopposed (assignSubnode (Simulated.ledger deployer) d parent label owner) u

theorem Since.settled (h : Since deployer e t u) (hcreated : CreatedBy deployer t.ledger.state)
    (hsettled : SettledOn t.ledger.state e.registry e.node e.owner) :
    SettledOn u.ledger.state e.registry e.node e.owner := by
  obtain ⟨later, hleft, hplayed⟩ := h.played
  rw [hplayed]
  exact hsettled.play hcreated hleft

/-- What the desk needs of the ledger: its registry is a contract, in which the node is settled. -/
theorem Desk.Serves.settled (h : d.Serves deployer e u)
    (hsettled : SettledOn u.ledger.state e.registry e.node e.owner) :
    (∃ contract, u.ledger.state.contracts.get? d.registry = some contract) ∧
      SettledOn u.ledger.state d.registry e.node deployer := by
  rw [h.registry, ← h.owner]
  exact ⟨h.deployed, hsettled⟩

theorem passed_of_settled (hcreated : CreatedBy deployer t.ledger.state)
    (hsettled : SettledOn t.ledger.state e.registry e.node e.owner) : Passed deployer e t where
  reads u hu := (hu.settled hcreated hsettled).answer hu.readable
  resolver u hu d hd path resolver hnode := by
    obtain ⟨⟨contract, hcontract⟩, hown⟩ := hd.settled (hu.settled hcreated hsettled)
    rw [← hnode] at hown
    exact unopposed_of_settled hd.precheck hown hu.readable (.resolver hcontract hown.current)
  subnode u hu d hd parent label owner hnode := by
    obtain ⟨⟨contract, hcontract⟩, hown⟩ := hd.settled (hu.settled hcreated hsettled)
    rw [← hnode] at hown
    exact unopposed_of_settled hd.precheck hown hu.readable (.subnode hcontract hown.current)

/-- **Once a wait for the owner of a node has ended well, nobody has to wait again** until the node
gets another owner, whatever history came before the wait. -/
theorem passed_await {history : List Event} (hplayed : s.ledger = World.play deployer {} history)
    (howner : s.ledger.state.ownerOf e.registry e.node = e.owner) (hmode : p.mode = .poll)
    (hawait : awaitPropagation (Simulated.ledger deployer) p e s = (.ok (), t)) :
    Passed deployer e t := by
  have hcreated : CreatedBy deployer s.ledger.state := by
    rw [hplayed]
    exact Simulated.createdBy_play deployer history
  exact passed_of_settled (createdBy_of_await hcreated hawait)
    (settledOn_of_await hmode howner hawait)

end Passed

/-! ## A lagging ledger -/

open Simulated (firstRegistry lagged)

/-- The account gives a child of the root to itself. -/
def selfGiven : Event :=
  .submit (.call firstRegistry
    (.setSubnodeOwner Naming.root (Naming.labelHash "btc") .defaultDeployer))

/-- The session that finds a registry, and a node just given away on a ledger that lags. -/
def lagging : Session World :=
  { ledger := World.play .defaultDeployer {}
      [Simulated.registryCreated, .set (.lag 2), selfGiven] }

/-- The account is expected to own the node. -/
def ownNode : Expectation := ⟨firstRegistry, Naming.node "btc", .defaultDeployer⟩

theorem node_btc_ne_root : Naming.node "btc" ≠ Naming.root := by
  have hchild : Naming.child Naming.root "btc" ≠ Naming.root :=
    Naming.child_ne_of_digest (by decide +kernel) (by decide +kernel)
  exact hchild

theorem granted_selfGiven :
    Granted lagged.state.holdings .defaultDeployer firstRegistry
      (.setSubnodeOwner Naming.root (Naming.labelHash "btc") .defaultDeployer) :=
  Simulated.granted_of_ownerOf Simulated.contract_lagged Simulated.ownerOf_lagged_root _

/-- Nobody owned the node before. -/
theorem ownerOf_lagged_btc :
    lagged.state.ownerOf firstRegistry (Naming.node "btc") = .zero 20 := by
  rw [State.ownerOf]
  exact if_neg node_btc_ne_root

/-- Two reads will still show that nobody owns it. -/
theorem stale_lagging :
    lagging.ledger.state.stale.get? (ownNode.registry, ownNode.node) =
      if 2 = 0 then none else some ⟨.zero 20, 2⟩ := by
  have hstale := (Simulated.gives_of_granted granted_selfGiven).entries.2
  rw [← ownerOf_lagged_btc]
  exact hstale

/-- The wait takes the two stale reads and two pauses. -/
theorem exists_await_lagging :
    ∃ t, awaitPropagation (Simulated.ledger .defaultDeployer) {} ownNode lagging = (.ok (), t) ∧
      CaughtUp ownNode lagging t := by
  have hidle : Idle lagging := rfl
  have hnobody : (.zero 20 : Address) ≠ ownNode.owner := by decide
  have howner : lagging.ledger.state.ownerOf ownNode.registry ownNode.node = ownNode.owner :=
    Simulated.ownerOf_submit granted_selfGiven
  exact (awaitPropagation_of_stale .defaultDeployer rfl (by decide) hidle rfl hnobody howner
    stale_lagging).1 (by decide)

/-- Contracts are not what a wait is for. -/
theorem CaughtUp.contracts {e : Expectation} {t t' : Session World} (h : CaughtUp e t t') :
    t'.ledger.state.contracts = t.ledger.state.contracts := by
  have hcontracts := Simulated.contracts_of_holdings h.holdings
  exact hcontracts

/-- After the wait, the account can bind a resolver to the node at once. -/
theorem passed_await_lagging :
    ∃ t, lagging.ledger.state.ownerOf ownNode.registry ownNode.node = ownNode.owner ∧
      awaitPropagation (Simulated.ledger .defaultDeployer) {} ownNode lagging = (.ok (), t) ∧
      Unopposed (bindResolver (Simulated.ledger .defaultDeployer) ⟨firstRegistry, 120, true⟩ "btc"
        (.zero 20)) t := by
  have howner : lagging.ledger.state.ownerOf ownNode.registry ownNode.node = ownNode.owner :=
    Simulated.ownerOf_submit granted_selfGiven
  obtain ⟨t, hawait, hcaught⟩ := exists_await_lagging
  have hcontract : lagging.ledger.state.contracts.get? firstRegistry =
      some ⟨"Root", .defaultDeployer, []⟩ :=
    (Simulated.get?_contracts_submit fun _ h => by cases h).trans Simulated.contract_lagged
  have hsince : Since .defaultDeployer ownNode t t :=
    ⟨⟨[], trivial, rfl⟩, by rw [hcaught.faults]; rfl⟩
  have hserves : Desk.Serves ⟨firstRegistry, 120, true⟩ .defaultDeployer ownNode t :=
    ⟨rfl, rfl, ⟨_, by rw [hcaught.contracts]; exact hcontract⟩, rfl⟩
  exact ⟨t, howner, hawait,
    (passed_await rfl howner rfl hawait).resolver t hsince _ hserves _ _ rfl⟩

/-! ## A registry that is not there yet -/

/-- Nobody is expected to own the root of the first contract to come. -/
def nobodysRoot : Expectation := ⟨firstRegistry, Naming.root, .zero 20⟩

/-- **A wait for nobody's ownership does not last** where the registry is only created after it: the
creation gives no node away, and reads show the creator then. -/
theorem not_passed_unfounded :
    ∃ t, (World.play .defaultDeployer {} []).state.ownerOf nobodysRoot.registry nobodysRoot.node =
        nobodysRoot.owner ∧
      awaitPropagation (Simulated.ledger .defaultDeployer) {} nobodysRoot
        { ledger := World.play .defaultDeployer {} [] } = (.ok (), t) ∧
      Simulated.Spared .defaultDeployer nobodysRoot.registry nobodysRoot.node t.ledger
        [Simulated.registryCreated] ∧
      (Simulated.owner nobodysRoot.registry nobodysRoot.node
        (t.ledger.play .defaultDeployer [Simulated.registryCreated])).answer =
          .ok .defaultDeployer ∧
      .defaultDeployer ≠ nobodysRoot.owner := by
  have hidle : Idle { ledger := World.play .defaultDeployer {} [] : Session World } := rfl
  have hread : (World.play .defaultDeployer {} []).state.read nobodysRoot.registry
      nobodysRoot.node = (nobodysRoot.owner, {}) := rfl
  refine ⟨_, rfl, poll_of_shown hidle rfl hread, ⟨?_, trivial⟩, ?_, by decide⟩
  · rintro _ ⟨⟩
  · exact congrArg Except.ok (Simulated.ownerOf_root rfl Simulated.get?_registryCreated)

end Rollout.Run
