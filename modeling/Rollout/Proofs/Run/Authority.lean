import Rollout.Proofs.Run.Report

/-!
# Proofs/Run/Authority — authority is acquired before it is used

On the ledger in memory a run can assign below a node, or bind its resolver, only as the owner of
the node.  Nobody owns anything but the root of a registry to begin with, so a run has to give every
other node to its own account first, and must not have given it away since (`authority_run`).

The proof follows the owners of nodes: whatever the ledger holds for a node, it holds in the naming
registry, and the latest record of the node's owner says so (`Mastered`).
-/

namespace Rollout.Run

open Simulated (World State)

/-! ## The latest owner in a list of records -/

/-- Whether a record gives a node to somebody. -/
def Gives (node : Node) (a : Assignment) : Prop :=
  a.role = .ownership ∧ a.node = some node

/-- **The account was given the node**: of all records that give it to somebody, the latest names
the account. -/
def Held (account : Address) (node : Node) (assignments : List Assignment) : Prop :=
  ∃ before record after, assignments = before ++ record :: after ∧
    Gives node record ∧ record.assigned = account ∧
    ∀ other ∈ after, ¬ Gives node other

section Held

variable {account : Address} {node : Node} {assignments : List Assignment} {record : Assignment}

theorem held_append (assignments : List Assignment) (h : Gives node record) :
    Held record.assigned node (assignments ++ [record]) :=
  ⟨assignments, record, [], rfl, h, rfl, by simp⟩

theorem Held.append (h : Held account node assignments) (hother : ¬ Gives node record) :
    Held account node (assignments ++ [record]) := by
  obtain ⟨before, latest, after, rfl, hassigns, haccount, hafter⟩ := h
  refine ⟨before, latest, after ++ [record], by simp, hassigns, haccount, ?_⟩
  intro other hmem
  rcases List.mem_append.1 hmem with hmem | hmem
  · exact hafter other hmem
  · rwa [List.mem_singleton.1 hmem]

end Held

/-! ## Calls that were granted -/

section Granted

variable {deployer : Address} {s s' : Session World}

/-- A call that a run takes for done was carried out. -/
theorem execute_of_transact {timeoutSecs : Nat} {operation : Operation} {target : Address}
    {call : Call} {refusal : LedgerError → DeployError} {receipt : Receipt}
    (h : transact (Simulated.ledger deployer) timeoutSecs operation (.call target call) refusal s =
      (.ok receipt, s')) (hsuccess : receipt.success = true) :
    s.ledger.state.holdings.execute deployer target call = .ok s'.ledger.state.holdings := by
  have htransacted := transacted_of_transact h
  generalize hr : Except.ok receipt = r at htransacted
  cases htransacted with
  | @answered transaction state limit _ answer _ hsubmit hawait hjournal =>
    obtain rfl : answer = .ok receipt := mapError_eq_ok hr.symm
    have hsent : Simulated.submit deployer (.call target call) s.ledger = (.ok transaction, state) :=
      hsubmit
    obtain ⟨kept, hkept, -⟩ := Simulated.executed_of_submit hsent
    have hsettled := (Simulated.await_of_receipt limit hkept).symm.trans hawait
    split at hsettled
    · cases hsettled
    · simp only [Confirmation.settled.injEq, Except.ok.injEq] at hsettled
      obtain ⟨-, rfl, hstate⟩ := hsettled
      rw [← hstate]
      exact Simulated.execute_of_receipt hsent hkept hsuccess
  | _ => cases hr

/-- A record is left by a call that the ledger carried out. -/
theorem execute_of_taken {d : Desk} {registry : Registry} {step : WiringStep} {record : Assignment}
    (h : Taken (Simulated.ledger deployer) d registry step s (.ok (some record)) s') :
    ∃ (i : Intent) (receipt : Receipt), Intends deployer d.registry registry step i ∧
      record = ⟨i.role, i.path, affectedNode i.call, i.target, i.assigned, receipt.transaction,
        receipt.block⟩ ∧
      s.ledger.state.holdings.execute deployer i.target i.call = .ok s'.ledger.state.holdings := by
  generalize hr : Except.ok (some record) = r at h
  cases h with
  | waited hquiet hintent => cases hr
  | stopped hquiet hpending hcause => cases hr
  | @called i t _ outcome hintent hquiet htransact =>
    obtain ⟨receipt, rfl, hmade⟩ := bind_eq_ok (x := outcome) hr.symm
    obtain ⟨made, hrecord, hsome⟩ := map_eq_ok hmade
    obtain rfl := Option.some.inj hsome
    obtain ⟨hsuccess, rfl⟩ := recordOf_eq_ok hrecord
    have hexecute := execute_of_transact htransact hsuccess
    rw [(alike_of_reads hquiet.reads).holdings] at hexecute
    exact ⟨i, receipt, intends_of_intentOf hintent, rfl, hexecute⟩

end Granted

/-! ## The owners of nodes -/

/-- Whether an account may use a node, going by the records before: it is the root, or the account
was given it. -/
def MayUse (account : Address) (node : Node) (earlier : List Assignment) : Prop :=
  node = Naming.root ∨ Held account node earlier

/-- **A record was made with authority**: it belongs to a step of its kind, and the account could
use the node whose owner may take that step. -/
structure Authorized (account : Address) (earlier : List Assignment) (step : WiringStep)
    (record : Assignment) : Prop where
  /-- To assign below a node takes the node above. -/
  ownership : record.role = .ownership → ∃ parent label owner,
    step = .assignSubnode parent label owner ∧ MayUse account (Naming.node parent) earlier
  /-- To bind a resolver takes the node itself. -/
  resolver : record.role = .resolver → ∃ path resolver, step = .bindResolver path resolver ∧
    record.path = some path ∧ MayUse account (Naming.node path) earlier

/-- Every record belongs to the assigning step at its place, and was made with authority. -/
def AllAuthorized (account : Address) (steps : List WiringStep) (assignments : List Assignment) :
    Prop :=
  ∀ index record, assignments[index]? = some record →
    ∃ step, (steps.filter assigns)[index]? = some step ∧
      Authorized account (assignments.take index) step record

/-- While steps are taken, owners are held in the naming registry only, the latest record of a
node's owner tells the owner, and every record was made with authority. -/
structure Mastered (account : Address) (d : Desk) (taken : List WiringStep) (p : Progress)
    (t : Session World) : Prop where
  owners : ∀ naming node owner, t.ledger.state.holdings.owners.get? (naming, node) = some owner →
    naming = d.registry ∧ Held owner node p.assignments
  length : (taken.filter assigns).length = p.assignments.length
  authorized : AllAuthorized account taken p.assignments

section Mastered

variable {deployer : Address} {d : Desk} {taken : List WiringStep} {p : Progress}
  {t t' : Session World} {step : WiringStep}

/-- An account that the ledger takes for the owner of a node may use it. -/
theorem Mastered.mayUse (h : Mastered deployer d taken p t) (haccount : deployer ≠ .zero 20)
    {node : Node} (howner : t.ledger.state.holdings.ownerOf d.registry node = deployer) :
    MayUse deployer node p.assignments := by
  by_cases hroot : node = Naming.root
  · exact .inl hroot
  · have hassigned := Simulated.get?_owners_of_ownerOf howner hroot haccount
    exact .inr (h.owners d.registry node deployer hassigned).2

/-- A step that only waits. -/
theorem Mastered.wait (h : Mastered deployer d taken p t) (hassigns : assigns step = false)
    (halike : Simulated.Alike t.ledger t'.ledger) (completed : Option String) :
    Mastered deployer d (taken ++ [step]) ⟨p.registry, p.assignments, completed⟩ t' := by
  have hfilter : (taken ++ [step]).filter assigns = taken.filter assigns := by simp [hassigns]
  refine ⟨?_, ?_, ?_⟩
  · rw [halike.holdings]
    exact h.owners
  · rw [hfilter]
    exact h.length
  · rw [AllAuthorized, hfilter]
    exact h.authorized

/-- The owners after one more record. -/
theorem owners_of_execute {registry : Registry} {i : Intent} {receipt : Receipt}
    {s changed : State} {assignments : List Assignment} {record : Assignment}
    (hintends : Intends deployer d.registry registry step i)
    (hrecord : record = ⟨i.role, i.path, affectedNode i.call, i.target, i.assigned,
      receipt.transaction, receipt.block⟩)
    (hexecute : s.execute deployer i.target i.call = .ok changed)
    (howners : ∀ naming node owner, s.owners.get? (naming, node) = some owner →
      naming = d.registry ∧ Held owner node assignments) :
    ∀ naming node owner, changed.owners.get? (naming, node) = some owner →
      naming = d.registry ∧ Held owner node (assignments ++ [record]) := by
  intro naming node owner howner
  rw [Simulated.apply_of_execute hexecute] at howner
  subst hrecord
  cases hintends with
  | @subnode parent label _ a hprincipal =>
    simp only [State.apply, Assoc.get?_insert] at howner
    split at howner
    · next hsame =>
      obtain rfl := Option.some.inj howner
      obtain ⟨rfl, rfl⟩ := Prod.mk.inj hsame
      exact ⟨rfl, held_append assignments ⟨rfl, rfl⟩⟩
    · next hother =>
      obtain ⟨rfl, hheld⟩ := howners naming node owner howner
      refine ⟨rfl, hheld.append fun hassigns => hother ?_⟩
      rw [← Option.some.inj hassigns.2]
  | _ =>
    obtain ⟨hnaming, hheld⟩ := howners naming node owner howner
    refine ⟨hnaming, hheld.append fun hassigns => ?_⟩
    cases hassigns.1

/-- The record of a call that was carried out was made with authority. -/
theorem Mastered.authorize {registry : Registry} {i : Intent} {receipt : Receipt}
    {record : Assignment} {changed : State} (h : Mastered deployer d taken p t)
    (haccount : deployer ≠ .zero 20) (hintends : Intends deployer d.registry registry step i)
    (hrecord : record = ⟨i.role, i.path, affectedNode i.call, i.target, i.assigned,
      receipt.transaction, receipt.block⟩)
    (hexecute : t.ledger.state.holdings.execute deployer i.target i.call = .ok changed) :
    Authorized deployer p.assignments step record := by
  have hgranted := Simulated.granted_of_execute hexecute
  subst hrecord
  cases hintends with
  | @subnode parent label owner a hprincipal =>
    cases hgranted with
    | subnode hcontract howner =>
      exact ⟨fun _ => ⟨parent, label, owner, rfl, h.mayUse haccount howner⟩, nofun⟩
  | @resolver path resolver a hprincipal =>
    cases hgranted with
    | resolver hcontract howner =>
      exact ⟨nofun, fun _ => ⟨path, resolver, rfl, rfl, h.mayUse haccount howner⟩⟩
  | _ => exact ⟨nofun, nofun⟩

/-- A step that left a record. -/
theorem Mastered.record {record : Assignment} (h : Mastered deployer d taken p t)
    (hassigns : assigns step = true) (hauthorized : Authorized deployer p.assignments step record)
    (howners : ∀ naming node owner,
      t'.ledger.state.holdings.owners.get? (naming, node) = some owner →
        naming = d.registry ∧ Held owner node (p.assignments ++ [record]))
    (completed : Option String) :
    Mastered deployer d (taken ++ [step]) ⟨p.registry, p.assignments ++ [record], completed⟩ t' := by
  have hfilter : (taken ++ [step]).filter assigns = taken.filter assigns ++ [step] := by
    simp [hassigns]
  refine ⟨howners, ?_, fun index other hother => ?_⟩
  · rw [hfilter, List.length_append, List.length_append, h.length]
    rfl
  · dsimp only at hother ⊢
    rw [hfilter]
    rcases Nat.lt_trichotomy index p.assignments.length with hlt | heq | hgt
    · rw [List.getElem?_append_left hlt] at hother
      rw [List.getElem?_append_left (h.length ▸ hlt),
        List.take_append_of_le_length (Nat.le_of_lt hlt)]
      exact h.authorized index other hother
    · subst heq
      rw [List.getElem?_concat_length] at hother
      obtain rfl := Option.some.inj hother
      rw [← h.length, List.getElem?_concat_length, h.length, List.take_left]
      exact ⟨step, rfl, hauthorized⟩
    · have hlength : (p.assignments ++ [record]).length ≤ index := by
        rw [List.length_append, List.length_singleton]
        exact hgt
      rw [List.getElem?_eq_none hlength] at hother
      cases hother

theorem Mastered.next {made : Option Assignment} (h : Mastered deployer d taken p t)
    (haccount : deployer ≠ .zero 20)
    (htaken : Taken (Simulated.ledger deployer) d p.registry step t (.ok made) t')
    (completed : Option String) :
    Mastered deployer d (taken ++ [step]) ⟨p.registry, p.assignments ++ made.toList, completed⟩
      t' := by
  rcases replayed_of_taken htaken with
    ⟨hassigns, rfl, halike⟩ | ⟨record, hassigns, rfl, -, -⟩
  · rw [Option.toList_none, List.append_nil]
    exact h.wait hassigns halike completed
  · obtain ⟨i, receipt, hintends, hrecord, hexecute⟩ := execute_of_taken htaken
    exact h.record hassigns (h.authorize haccount hintends hrecord hexecute)
      (owners_of_execute hintends hrecord hexecute h.owners) completed

end Mastered

/-! ## Whole runs -/

/-- While components are deployed, nothing is owned in any registry but its root. -/
def Unowned (p : Progress) (t : Session World) : Prop :=
  p.assignments = [] ∧ t.ledger.state.holdings.owners = {}

theorem Unowned.next {deployer address : Address} {timeoutSecs : Nat} {c : Component} {p : Progress}
    {t t' : Session World} {extended : Registry} (h : Unowned p t)
    (hdeployed : Deployed (Simulated.ledger deployer) timeoutSecs c p.registry t
      (.ok (address, extended)) t') (completed : Option String) :
    Unowned ⟨extended, p.assignments, completed⟩ t' := by
  obtain ⟨creation, resource, -, -, -, -, -, hholdings⟩ := produced_of_deployed hdeployed
  exact ⟨h.1, (congrArg State.owners hholdings).trans h.2⟩

theorem Unowned.desk {deployer : Address} {p : Progress} {t : Session World} (h : Unowned p t)
    (d : Desk) : Mastered deployer d [] p t where
  owners := by
    intro naming node owner howner
    rw [h.2] at howner
    cases howner
  length := by rw [h.1]; rfl
  authorized := by simp [AllAuthorized, h.1]

theorem AllAuthorized.mono {account : Address} {taken steps : List WiringStep}
    {assignments : List Assignment} (h : AllAuthorized account taken assignments)
    (hpart : taken <+: steps) : AllAuthorized account steps assignments := by
  intro index record hrecord
  obtain ⟨step, hstep, hauthorized⟩ := h index record hrecord
  obtain ⟨more, hmore⟩ := List.IsPrefix.filter assigns hpart
  have hindex : index < (taken.filter assigns).length := (List.getElem?_eq_some_iff.1 hstep).1
  exact ⟨step, by rw [← hmore, List.getElem?_append_left hindex, hstep], hauthorized⟩

/-- The records of a run were made with authority, whatever stopped it. -/
theorem authorized_of_ran {deployer : Address} {plan : Plan} {settings : Settings}
    {outcome : Except Failure Report} {t : Session World}
    (h : Ran (Simulated.ledger deployer) plan settings (fun _ => Unowned) (Mastered deployer)
      outcome t) : AllAuthorized deployer plan.wiring (reportOf outcome).assignments := by
  have hnone : ∀ {p : Progress} {t : Session World}, Unowned p t →
      AllAuthorized deployer plan.wiring p.assignments := by
    intro p t hunowned
    simp [AllAuthorized, hunowned.1]
  cases h with
  | deployed hregistry hdeployed => exact hnone hdeployed
  | wired hwired => exact hwired.authorized
  | deploying hsplit hdeployed hfailed => exact hnone hdeployed
  | unnamed hregistry haddress hdeployed => exact hnone hdeployed
  | wiring hsplit hwired hfailed => exact hwired.authorized.mono ⟨_, hsplit.symm⟩

/-- **Authority is acquired before it is used.**  Every record of an owner or a resolver stands
behind a record that gave the node above, or the node itself, to the account of the run, which is
the latest such record before it; only the root needs none. -/
theorem authority_run {deployer : Address} (plan : Plan) (settings : Settings) (start : Registry)
    {s : Session World} (haccount : deployer ≠ .zero 20) (hfresh : s.ledger.state = {}) :
    AllAuthorized deployer plan.wiring
      (reportOf (run (Simulated.ledger deployer) plan settings start s).1).assignments := by
  have hkept : Kept (Simulated.ledger deployer) plan settings (fun _ => Unowned)
      (Mastered deployer) :=
    { deployed := fun _ h hdeployed => h.next hdeployed _
      desk := fun _ _ h => h.desk _
      taken := fun _ h htaken => h.next haccount htaken _ }
  have hstart : Unowned { registry := start } s := ⟨rfl, by rw [hfresh]; rfl⟩
  exact authorized_of_ran (hkept.ran hstart)

/-- A plan that gives a node to the run, binds its resolver, and gives it away. -/
def lending : Plan :=
  ⟨[{ name := "Root" }], some "Root",
    [.assignSubnode "" "eth" .deployer, .awaitPropagation "eth" .deployer,
      .bindResolver "eth" (.component "Root"),
      .assignSubnode "" "eth" (.component "Root")]⟩

theorem authority_run_lending : Address.defaultDeployer ≠ .zero 20 ∧
    AllAuthorized Address.defaultDeployer lending.wiring
      (reportOf (run (Simulated.ledger Address.defaultDeployer) lending {} {}
        { ledger := {} }).1).assignments := by
  have haccount : Address.defaultDeployer ≠ .zero 20 := by decide
  exact ⟨haccount, authority_run lending {} {} (s := { ledger := {} }) haccount rfl⟩

end Rollout.Run
