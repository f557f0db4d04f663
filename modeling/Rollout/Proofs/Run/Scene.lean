import Rollout.Proofs.Run.Cut
import Rollout.Proofs.Run.Fence

/-!
# Proofs/Run/Scene — wiring steps that go well on a lagging ledger

A run that is not cancelled, on a ledger without any fault but that it lags, knows where it is: the
holdings are what the calls so far made of them, and of all nodes only those that were given to
somebody without a wait for it may still be shown as they were (`Scene`).  Each kind of step goes
from one scene to the next, whether authority is checked beforehand or not; steps that go well one
after the other are put together by `Passes.append`.
-/

namespace Rollout.Run

open Simulated (World State Granted)

/-- **Where a run is**: nothing cancels it, the ledger lags but works, these are its holdings, and
reads of all nodes but these show their owners. -/
structure Scene (naming : Address) (lag : Nat) (holdings : State) (unsettled : List Node)
    (t : Session World) : Prop where
  idle : Idle t
  faults : t.ledger.faults = { lag }
  holdings : t.ledger.state.holdings = holdings
  settled : ∀ node, node ∉ unsettled → t.ledger.state.stale.get? (naming, node) = none

/-- The nodes that a call gives to somebody. -/
def reassigned : Call → List Node
  | .setSubnodeOwner node label _ => [Naming.subnode node label]
  | _ => []

section Scene

variable {deployer naming target assigned : Address} {lag : Nat} {holdings : State}
  {unsettled : List Node} {t t' : Session World} {d : Desk} {node : Node} {call : Call}

theorem Scene.twin (h : Scene naming lag holdings unsettled t) (htwin : Twin t t') :
    Scene naming lag holdings unsettled t' := by
  rw [htwin]
  exact ⟨h.idle, h.faults, h.holdings, h.settled⟩

/-- A node that reads show as it is again is settled. -/
theorem Scene.caughtUp {owner : Address} (h : Scene naming lag holdings (node :: unsettled) t)
    (hcaught : CaughtUp ⟨naming, node, owner⟩ t t') : Scene naming lag holdings unsettled t' where
  idle := hcaught.idle
  faults := hcaught.faults.trans h.faults
  holdings := hcaught.holdings.trans h.holdings
  settled other hother := by
    by_cases hsame : other = node
    · rw [hsame]
      exact hcaught.shown
    · rw [hcaught.others _ fun hkey => hsame (Prod.mk.inj hkey).2]
      exact h.settled other (List.not_mem_cons_of_ne_of_not_mem hsame hother)

/-- The check beforehand passes the owner of a settled node. -/
theorem Scene.ensureAuthority (h : Scene d.registry lag holdings unsettled t)
    (hnode : node ∉ unsettled) (howner : holdings.ownerOf d.registry node = deployer)
    (name : String) :
    ∃ t', ensureAuthority (Simulated.ledger deployer) d name node t = (.ok (), t') ∧ Twin t t' := by
  cases hcheck : d.precheck with
  | false => exact ⟨t, ensureAuthority_of_unchecked hcheck name, .refl t⟩
  | true =>
    have hreadable : t.ledger.faults.unreadable = false := by rw [h.faults]
    have howner' : t.ledger.state.ownerOf d.registry node = deployer := by
      rw [← howner, ← h.holdings]
      rfl
    have hread := owner_of_read deployer h.idle hreadable
      (Simulated.read_of_settled (h.settled node hnode))
    refine ⟨_, (ensureAuthority_of_owner hcheck hread name).trans ?_, (Twin.refl t).read⟩
    rw [howner']
    exact congrArg (·, _) (if_pos rfl)

/-- A call that is granted is carried out, and leaves a record. -/
theorem Scene.execute (h : Scene naming lag holdings unsettled t)
    (hgranted : Granted holdings deployer target call) (d : Desk) (role : AssignmentRole)
    (path : Option String) (assigned : Address) :
    ∃ record t', execute (Simulated.ledger deployer) d target call role path assigned t =
        (.ok record, t') ∧
      Scene naming lag (holdings.apply target call) (reassigned call ++ unsettled) t' ∧
      t'.ledger.state = t.ledger.state.call deployer target call lag := by
  have hstalled : t.ledger.faults.stalled = false := by rw [h.faults]
  have hgranted' : Granted t.ledger.state.holdings deployer target call := h.holdings ▸ hgranted
  obtain ⟨record, t', hrun, hidle, hledger⟩ := execute_of_ok d role path assigned h.idle hstalled
    (Simulated.execute_of_granted hgranted')
  have hstate : t'.ledger.state = t.ledger.state.call deployer target call lag := by
    rw [hledger, calledWorld, Simulated.submit, h.faults]
  refine ⟨record, t', hrun, ⟨hidle, ?_, ?_, fun node hnode => ?_⟩, hstate⟩
  · rw [hledger, calledWorld, Simulated.faults_submit, h.faults]
  · rw [hstate, Simulated.holdings_call, Simulated.execute_of_granted hgranted', h.holdings]
  · rw [hstate, Simulated.get?_stale_of_other _ hgranted' fun change hchange => ?_]
    · exact h.settled node fun hmem => hnode (List.mem_append_right _ hmem)
    · cases call with
      | setSubnodeOwner parent label owner =>
        obtain rfl := Option.some.inj hchange
        intro hsame
        refine hnode (List.mem_append_left _ ?_)
        rw [← (Prod.mk.inj hsame).2]
        exact List.mem_singleton_self _
      | _ => cases hchange

/-- An assignment by the owner of a settled node, checked beforehand or not. -/
theorem Scene.assign (h : Scene d.registry lag holdings unsettled t)
    (hgranted : Granted holdings deployer target call) (hnode : node ∉ unsettled)
    (howner : holdings.ownerOf d.registry node = deployer) (name : String) (role : AssignmentRole)
    (path : Option String) (assigned : Address) :
    ∃ record t', (some <$> (Run.ensureAuthority (Simulated.ledger deployer) d name node >>= fun _ =>
        Run.execute (Simulated.ledger deployer) d target call role path assigned)) t =
        (.ok (some record), t') ∧
      Scene d.registry lag (holdings.apply target call) (reassigned call ++ unsettled) t' ∧
      t'.ledger.state = t.ledger.state.call deployer target call lag := by
  obtain ⟨u, hpassed, htwin⟩ := h.ensureAuthority hnode howner name
  obtain ⟨record, t', hrun, hscene, hstate⟩ :=
    (h.twin htwin).execute hgranted d role path assigned
  rw [htwin.ledger] at hstate
  refine ⟨record, t', ?_, hscene, hstate⟩
  rw [map_apply, bind_of_ok _ hpassed, hrun]
  rfl

end Scene

/-! ## Steps one after the other -/

/-- Steps that go well one after the other, wherever the run is and whatever it has done before. -/
def Passes {σ : Type} (l : Ledger σ) (d : Desk) (policy : PropagationPolicy) (registry : Registry)
    (steps : List WiringStep) (t t' : Session σ) : Prop :=
  ∀ index p, p.registry = registry → ∃ q, q.registry = registry ∧
    inOrder (wireNext l d policy) index steps p t = (.ok q, t')

section Passes

variable {σ : Type} {l : Ledger σ} {d : Desk} {policy : PropagationPolicy} {registry : Registry}
  {xs ys : List WiringStep} {step : WiringStep} {t t' u : Session σ}

theorem passes_of_takeStep {made : Option Assignment}
    (h : takeStep l d policy registry step t = (.ok made, t')) :
    Passes l d policy registry [step] t t' := by
  rintro index p rfl
  refine ⟨⟨p.registry, p.assignments ++ made.toList, some step.describe⟩, rfl, ?_⟩
  simp only [inOrder, wireNext, h]

theorem Passes.append (h : Passes l d policy registry xs t u)
    (h' : Passes l d policy registry ys u t') : Passes l d policy registry (xs ++ ys) t t' := by
  intro index p hp
  obtain ⟨q, hq, hrun⟩ := h index p hp
  obtain ⟨q', hq', hrun'⟩ := h' (index + xs.length) q hq
  refine ⟨q', hq', ?_⟩
  rw [inOrder_append, hrun]
  exact hrun'

/-- The first failure ends the wiring. -/
theorem Passes.fail {p : Progress} {e : DeployError} (h : Passes l d policy registry xs t u)
    (hfail : takeStep l d policy registry step u = (.error e, t')) (hp : p.registry = registry) :
    ∃ q : Progress, inOrder (wireNext l d policy) 0 (xs ++ [step]) p t =
      (.error (q.fail (.wiring xs.length) e), t') := by
  obtain ⟨q, rfl, hrun⟩ := h 0 p hp
  refine ⟨q, (inOrder_concat hrun step).trans ?_⟩
  rw [wireNext, hfail]

end Passes

/-! ## The kinds of steps -/

section Steps

variable {deployer : Address} {lag : Nat} {holdings : State} {unsettled : List Node}
  {t : Session World} {d : Desk} {registry : Registry} {contract : Simulated.Contract}
  (policy : PropagationPolicy)

theorem Scene.assignSubnode (h : Scene d.registry lag holdings unsettled t) {parent : String}
    (label : String) {owner : Principal} {a : Address}
    (hcontract : holdings.contracts.get? d.registry = some contract)
    (howner : holdings.ownerOf d.registry (Naming.node parent) = deployer)
    (hparent : Naming.node parent ∉ unsettled)
    (hprincipal : resolvePrincipal deployer registry owner = .ok a) :
    ∃ t', Passes (Simulated.ledger deployer) d policy registry [.assignSubnode parent label owner]
        t t' ∧
      Scene d.registry lag (holdings.apply d.registry
        (.setSubnodeOwner (Naming.node parent) (Naming.labelHash label) a))
        (Naming.child (Naming.node parent) label :: unsettled) t' ∧
      t'.ledger.state = t.ledger.state.call deployer d.registry
        (.setSubnodeOwner (Naming.node parent) (Naming.labelHash label) a) lag := by
  have hgranted : Granted holdings deployer d.registry
      (.setSubnodeOwner (Naming.node parent) (Naming.labelHash label) a) := .subnode hcontract howner
  obtain ⟨record, t', hrun, hscene, hstate⟩ := h.assign hgranted hparent howner "setSubnodeOwner"
    .ownership (some (Naming.join parent label)) a
  exact ⟨t', passes_of_takeStep ((ofExcept_bind_of_ok _ hprincipal t).trans hrun), hscene, hstate⟩

theorem Scene.bindResolver (h : Scene d.registry lag holdings unsettled t) {path : String}
    {resolver : Principal} {a : Address}
    (hcontract : holdings.contracts.get? d.registry = some contract)
    (howner : holdings.ownerOf d.registry (Naming.node path) = deployer)
    (hpath : Naming.node path ∉ unsettled)
    (hprincipal : resolvePrincipal deployer registry resolver = .ok a) :
    ∃ t', Passes (Simulated.ledger deployer) d policy registry [.bindResolver path resolver] t t' ∧
      Scene d.registry lag (holdings.apply d.registry (.setResolver (Naming.node path) a)) unsettled
        t' := by
  have hgranted : Granted holdings deployer d.registry (.setResolver (Naming.node path) a) :=
    .resolver hcontract howner
  obtain ⟨record, t', hrun, hscene, -⟩ := h.assign hgranted hpath howner "setResolver" .resolver
    (some path) a
  exact ⟨t', passes_of_takeStep ((ofExcept_bind_of_ok _ hprincipal t).trans hrun), hscene⟩

theorem Scene.bindInterface (h : Scene d.registry lag holdings unsettled t)
    {resolver implementer : Principal} {path : String} {interfaceId : InterfaceId} {a b : Address}
    (hcontract : holdings.contracts.get? a = some contract)
    (hregistry : contract.registry? = some d.registry)
    (howner : holdings.ownerOf d.registry (Naming.node path) = deployer)
    (hpath : Naming.node path ∉ unsettled)
    (hresolver : resolvePrincipal deployer registry resolver = .ok a)
    (himplementer : resolvePrincipal deployer registry implementer = .ok b) :
    ∃ t', Passes (Simulated.ledger deployer) d policy registry
        [.bindInterface resolver path interfaceId implementer] t t' ∧
      Scene d.registry lag (holdings.apply a (.setInterface (Naming.node path) interfaceId b))
        unsettled t' := by
  have hgranted : Granted holdings deployer a (.setInterface (Naming.node path) interfaceId b) :=
    .interface hcontract hregistry howner
  obtain ⟨record, t', hrun, hscene, -⟩ := h.assign hgranted hpath howner "setInterface" .interface
    (some path) b
  have htake : takeStep (Simulated.ledger deployer) d policy registry
      (.bindInterface resolver path interfaceId implementer) t = (.ok (some record), t') := by
    refine (ofExcept_bind_of_ok _ hresolver t).trans ?_
    exact (ofExcept_bind_of_ok _ himplementer t).trans hrun
  exact ⟨t', passes_of_takeStep htake, hscene⟩

theorem Scene.authorizeController (h : Scene d.registry lag holdings unsettled t)
    {resource controller : Principal} {a b : Address}
    (hcontract : holdings.contracts.get? a = some contract) (hcreator : contract.creator = deployer)
    (hresource : resolvePrincipal deployer registry resource = .ok a)
    (hcontroller : resolvePrincipal deployer registry controller = .ok b) :
    ∃ t', Passes (Simulated.ledger deployer) d policy registry
        [.authorizeController resource controller] t t' ∧
      Scene d.registry lag (holdings.apply a (.addController b)) unsettled t' := by
  have hgranted : Granted holdings deployer a (.addController b) := .controller hcontract hcreator
  obtain ⟨record, t', hrun, hscene, -⟩ := h.execute hgranted d .controller none b
  have htake : takeStep (Simulated.ledger deployer) d policy registry
      (.authorizeController resource controller) t = (.ok (some record), t') := by
    refine (ofExcept_bind_of_ok _ hresource t).trans ?_
    refine (ofExcept_bind_of_ok _ hcontroller t).trans ?_
    change (some <$> Run.execute (Simulated.ledger deployer) d a (.addController b) .controller none
      b) t = _
    rw [map_apply, hrun]
    rfl
  exact ⟨t', passes_of_takeStep htake, hscene⟩

/-- The account waits for a node that it was just given. -/
theorem Scene.await {path : String} {previous : Address}
    (h : Scene d.registry lag holdings (Naming.node path :: unsettled) t) (registry : Registry)
    (hmode : policy.mode = .poll) (hinterval : 0 < policy.pollIntervalMs)
    (howner : holdings.ownerOf d.registry (Naming.node path) = deployer)
    (hprevious : previous ≠ deployer)
    (hstale : t.ledger.state.stale.get? (d.registry, Naming.node path) =
      if lag = 0 then none else some ⟨previous, lag⟩) :
    (lag * policy.pollIntervalMs ≤ 1000 * policy.timeoutSecs →
      ∃ t', Passes (Simulated.ledger deployer) d policy registry
          [.awaitPropagation path .deployer] t t' ∧ Scene d.registry lag holdings unsettled t') ∧
    (1000 * policy.timeoutSecs < lag * policy.pollIntervalMs →
      ∃ t', takeStep (Simulated.ledger deployer) d policy registry
          (.awaitPropagation path .deployer) t =
        (.error (.confirmationTimeout (.propagation (Naming.node path) deployer)
          policy.timeoutSecs none none), t')) := by
  have hprincipal : resolvePrincipal deployer registry .deployer = .ok deployer := rfl
  have hreadable : t.ledger.faults.unreadable = false := by rw [h.faults]
  have hgiven : t.ledger.state.ownerOf d.registry (Naming.node path) = deployer := by
    rw [← howner, ← h.holdings]
    rfl
  obtain ⟨hfits, hfails⟩ := awaitPropagation_of_stale deployer
    (e := ⟨d.registry, Naming.node path, deployer⟩) hmode hinterval h.idle hreadable hprevious
    hgiven hstale
  refine ⟨fun hlast => ?_, fun hlast => ?_⟩
  · obtain ⟨t', hrun, hcaught⟩ := hfits hlast
    have htake : takeStep (Simulated.ledger deployer) d policy registry
        (.awaitPropagation path .deployer) t = (.ok none, t') :=
      (ofExcept_bind_of_ok _ hprincipal t).trans (bind_of_ok _ hrun)
    exact ⟨t', passes_of_takeStep htake, h.caughtUp hcaught⟩
  · obtain ⟨t', hrun⟩ := hfails hlast
    exact ⟨t', (ofExcept_bind_of_ok _ hprincipal t).trans (bind_of_error _ hrun)⟩

/-- **A node is acquired**: the account gives it to itself and waits until reads show that, for
which as many pauses as the ledger lags have to fit into the time of the policy. -/
theorem Scene.acquire (h : Scene d.registry lag holdings unsettled t) (registry : Registry)
    {parent label path : String} (hmode : policy.mode = .poll)
    (hinterval : 0 < policy.pollIntervalMs)
    (hcontract : holdings.contracts.get? d.registry = some contract)
    (howner : holdings.ownerOf d.registry (Naming.node parent) = deployer)
    (hparent : Naming.node parent ∉ unsettled)
    (hpath : Naming.node path = Naming.child (Naming.node parent) label)
    (hchild : Naming.node path ∉ unsettled)
    (hother : holdings.ownerOf d.registry (Naming.node path) ≠ deployer) :
    (lag * policy.pollIntervalMs ≤ 1000 * policy.timeoutSecs →
      ∃ t', Passes (Simulated.ledger deployer) d policy registry
          [.assignSubnode parent label .deployer, .awaitPropagation path .deployer] t t' ∧
        Scene d.registry lag (holdings.apply d.registry
          (.setSubnodeOwner (Naming.node parent) (Naming.labelHash label) deployer)) unsettled t') ∧
    (1000 * policy.timeoutSecs < lag * policy.pollIntervalMs →
      ∃ u t', Passes (Simulated.ledger deployer) d policy registry
          [.assignSubnode parent label .deployer] t u ∧
        takeStep (Simulated.ledger deployer) d policy registry (.awaitPropagation path .deployer) u =
          (.error (.confirmationTimeout (.propagation (Naming.node path) deployer)
            policy.timeoutSecs none none), t')) := by
  have hprincipal : resolvePrincipal deployer registry .deployer = .ok deployer := rfl
  obtain ⟨u, hassigned, hscene, hstate⟩ :=
    h.assignSubnode policy label hcontract howner hparent hprincipal
  rw [← hpath] at hscene
  have hgiven : (holdings.apply d.registry (.setSubnodeOwner (Naming.node parent)
      (Naming.labelHash label) deployer)).ownerOf d.registry (Naming.node path) = deployer :=
    (Simulated.ownerOf_apply ..).trans (if_pos hpath.symm)
  have hstale : u.ledger.state.stale.get? (d.registry, Naming.node path) =
      if lag = 0 then none else some ⟨holdings.ownerOf d.registry (Naming.node path), lag⟩ := by
    have hgranted : Granted t.ledger.state.holdings deployer d.registry
        (.setSubnodeOwner (Naming.node parent) (Naming.labelHash label) deployer) := by
      rw [h.holdings]
      exact .subnode hcontract howner
    rw [hstate, Simulated.get?_stale_of_change _ hgranted (by rw [hpath]; rfl),
      h.settled _ hchild, ← h.holdings, hpath]
    rfl
  obtain ⟨hfits, hfails⟩ := hscene.await policy registry hmode hinterval hgiven hother hstale
  refine ⟨fun hlast => ?_, fun hlast => ⟨u, ?_⟩⟩
  · obtain ⟨t', hwaited, hend⟩ := hfits hlast
    exact ⟨t', hassigned.append hwaited, hend⟩
  · obtain ⟨t', hrun⟩ := hfails hlast
    exact ⟨t', hassigned, hrun⟩

end Steps

end Rollout.Run
