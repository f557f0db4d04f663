import Mathlib.Data.List.Forall2
import Rollout.Ledger.Simulated
import Rollout.Proofs.Plan.Checked
import Rollout.Proofs.Run.Journal

/-!
# Proofs/Run/Position — where a run ends, and what it has to show

Whatever stops a run, its outcome tells exactly how far it came: each component that was deployed
left one resource behind those of the start, each step that assigns something left one record, and
both carry what the receipts of their own submissions tell (`Shows`).  `position_run` says so for
every run of a checked plan, together with the step that failed and the last one completed.

The two phases of a run have one invariant each (`AfterComponents`, `AfterSteps`); `standing_of_run`
is their induction, and serves every result about where a run ends.
-/

namespace Rollout.Run

variable {σ α β : Type}

/-- What was made of something was made of one of the things there were. -/
theorem forall₂_mem_right {R : α → β → Prop} {as : List α} {bs : List β} {b : β}
    (h : List.Forall₂ R as bs) (hb : b ∈ bs) : ∃ a ∈ as, R a b := by
  induction h with
  | nil => cases hb
  | @cons a _ as _ hR _ ih =>
    rcases List.mem_cons.1 hb with rfl | hb
    · exact ⟨a, List.mem_cons_self .., hR⟩
    · obtain ⟨a', ha', hR'⟩ := ih hb
      exact ⟨a', List.mem_cons_of_mem _ ha', hR'⟩

/-! ## What steps leave -/

/-- Whether a request asks for the creation of a component, whatever its references became. -/
def Creates (c : Component) (request : Request) : Prop :=
  ∃ args libraries, request = .create ⟨c.name, c.contractName, args, libraries⟩

/-- The resource of a component has its name, and the rest from the receipt of its creation. -/
def Produced (c : Component) (m : Submission × Resource) : Prop :=
  Creates c m.1.request ∧ ∃ receipt address,
    m.1.settlement = some (.ok receipt) ∧ receipt.success = true ∧
    receipt.contractAddress = some address ∧
    m.2 = ⟨c.name, address, receipt.transaction, receipt.block⟩

/-- The record of a step says what the step asks for, with its principals looked up in `registry`,
and has the transaction and the block from the receipt of its call. -/
def Recorded (deployer : Address) (naming : Except DeployError Address) (registry : Registry)
    (step : WiringStep) (m : Submission × Assignment) : Prop :=
  ∃ i receipt, intentOf deployer naming registry step = some (.ok i) ∧ m.1.request = i.request ∧
    m.1.settlement = some (.ok receipt) ∧ receipt.success = true ∧
    m.2 = ⟨i.role, i.path, affectedNode i.call, i.target, i.assigned, receipt.transaction,
      receipt.block⟩

section Steps

variable {l : Ledger σ} {timeoutSecs : Nat} {c : Component} {registry : Registry} {d : Desk}
  {step : WiringStep} {s s' : Session σ}

theorem resource_of_deployed {address : Address} {extended : Registry}
    (h : Deployed l timeoutSecs c registry s (.ok (address, extended)) s') :
    registry.contains c.name = false ∧ ∃ m, Produced c m ∧
      s'.submissions = s.submissions ++ [m.1] ∧
      extended.resources = registry.resources ++ [m.2] := by
  generalize hr : Except.ok (address, extended) = r at h
  cases h with
  | sent hfresh hcreation htransact =>
    obtain ⟨transaction, receipt, hcreated, hjournal⟩ := receipt_of_bind_ok htransact hr.symm
    obtain ⟨haddress, rfl⟩ := created_eq_ok hcreated
    obtain ⟨args, libraries, -, -, rfl⟩ := creationOf_eq_ok hcreation
    obtain ⟨hsuccess, hcontract⟩ := createdAddress_eq_ok haddress
    exact ⟨hfresh, (_, _), ⟨⟨args, libraries, rfl⟩, receipt, address, rfl, hsuccess, hcontract,
      rfl⟩, hjournal, rfl⟩
  | _ => cases hr

theorem record_of_taken {made : Option Assignment}
    (h : Taken l d registry step s (.ok made) s') :
    (assigns step = false ∧ made = none ∧ s'.submissions = s.submissions) ∨
    ∃ m, assigns step = true ∧ Recorded l.deployer (.ok d.registry) registry step m ∧
      made = some m.2 ∧ s'.submissions = s.submissions ++ [m.1] := by
  generalize hr : Except.ok made = r at h
  cases h with
  | waited hquiet hintent =>
    cases hr
    exact .inl ⟨assigns_of_intent.trans (congrArg Option.isSome hintent), rfl, hquiet.submissions⟩
  | stopped hquiet hpending => cases hr
  | @called i t _ _ hintent hquiet htransact =>
    obtain ⟨transaction, receipt, hmade, hjournal⟩ := receipt_of_bind_ok htransact hr.symm
    obtain ⟨record, hrecord, rfl⟩ := map_eq_ok hmade
    obtain ⟨hsuccess, rfl⟩ := recordOf_eq_ok hrecord
    rw [hquiet.submissions] at hjournal
    exact .inr ⟨(_, _), assigns_of_intent.trans (congrArg Option.isSome hintent),
      ⟨i, receipt, hintent, rfl, rfl, hsuccess, rfl⟩, rfl, hjournal⟩

end Steps

/-! ## What a run has to show -/

/-- **What a run has to show** for the components `deployed` and the steps `taken`: one resource for
each component behind those of the start, and one record for each step that assigns something, in
order.  Each is paired with the submission it comes from. -/
structure Shows (l : Ledger σ) (plan : Plan) (start : Registry) (deployed : List Component)
    (taken : List WiringStep) (registry : Registry) (assignments : List Assignment)
    (made : List (Submission × Resource)) (noted : List (Submission × Assignment)) : Prop where
  resources : registry.resources = start.resources ++ made.map Prod.snd
  produced : List.Forall₂ Produced deployed made
  assignments : assignments = noted.map Prod.snd
  recorded : List.Forall₂ (Recorded l.deployer (namingOf plan registry) registry)
    (taken.filter assigns) noted

/-- The submissions of resources and records, in order. -/
def sentFor (made : List (Submission × Resource)) (noted : List (Submission × Assignment)) :
    List Submission :=
  made.map Prod.fst ++ noted.map Prod.fst

/-- The last thing that was completed, in words. -/
def lastDone (deployed : List Component) (taken : List WiringStep) : Option String :=
  match taken.getLast? with
  | some step => some step.describe
  | none => deployed.getLast?.map fun c => s!"deployed {c.name}"

section Shows

variable {l : Ledger σ} {plan : Plan} {start registry extended : Registry}
  {deployed : List Component} {taken : List WiringStep} {assignments : List Assignment}
  {made : List (Submission × Resource)} {noted : List (Submission × Assignment)}

theorem Shows.deploy {c : Component} {m : Submission × Resource}
    (h : Shows l plan start deployed [] registry assignments made []) (hproduced : Produced c m)
    (hresources : extended.resources = registry.resources ++ [m.2]) :
    Shows l plan start (deployed ++ [c]) [] extended assignments (made ++ [m]) [] where
  resources := by
    rw [hresources, h.resources, List.map_append, List.append_assoc, List.map_singleton]
  produced := List.rel_append h.produced (.cons hproduced .nil)
  assignments := h.assignments
  recorded := .nil

theorem Shows.wait {step : WiringStep}
    (h : Shows l plan start deployed taken registry assignments made noted)
    (hassigns : assigns step = false) :
    Shows l plan start deployed (taken ++ [step]) registry assignments made noted where
  resources := h.resources
  produced := h.produced
  assignments := h.assignments
  recorded := by
    rw [List.filter_append, List.filter_cons_of_neg (by simp [hassigns]), List.filter_nil,
      List.append_nil]
    exact h.recorded

theorem Shows.record {step : WiringStep} {m : Submission × Assignment}
    (h : Shows l plan start deployed taken registry assignments made noted)
    (hassigns : assigns step = true)
    (hrecorded : Recorded l.deployer (namingOf plan registry) registry step m) :
    Shows l plan start deployed (taken ++ [step]) registry (assignments ++ [m.2]) made
      (noted ++ [m]) where
  resources := h.resources
  produced := h.produced
  assignments := by rw [h.assignments, List.map_append, List.map_singleton]
  recorded := by
    rw [List.filter_append, List.filter_cons_of_pos hassigns, List.filter_nil]
    exact List.rel_append h.recorded (.cons hrecorded .nil)

theorem names_of_produced (h : List.Forall₂ Produced deployed made) :
    (made.map Prod.snd).map Resource.name = deployed.map Component.name := by
  induction h with
  | nil => rfl
  | cons hproduced _ ih =>
    obtain ⟨-, _, _, -, -, -, hresource⟩ := hproduced
    rw [List.map_cons, List.map_cons, List.map_cons, ih, hresource]

/-- The names of a registry are those of the start and of the components deployed. -/
theorem Shows.names (h : Shows l plan start deployed taken registry assignments made noted) :
    registry.names = start.names ++ deployed.map Component.name := by
  rw [Registry.names, h.resources, List.map_append, names_of_produced h.produced]
  rfl

/-- A component that is deployed can be looked up. -/
theorem Shows.find?_ne_none (h : Shows l plan start deployed taken registry assignments made noted)
    {name : String} (hname : name ∈ deployed.map Component.name) : registry.find? name ≠ none := by
  have hmem : name ∈ registry.names := h.names ▸ List.mem_append_right _ hname
  exact find?_ne_none_iff.2 hmem

end Shows

/-! ## The invariants -/

section Invariants

variable (l : Ledger σ) (plan : Plan) (start : Registry) (s : Session σ)

/-- While components are deployed. -/
structure AfterComponents (earlier : List Component) (p : Progress) (t : Session σ) : Prop where
  account : ∃ made, Shows l plan start earlier [] p.registry p.assignments made [] ∧
    t.submissions = s.submissions ++ sentFor made []
  last : p.lastCompleted = lastDone earlier []
  fresh : ∀ c ∈ earlier, start.contains c.name = false

/-- While steps are taken. -/
structure AfterSteps (d : Desk) (earlier : List WiringStep) (p : Progress) (t : Session σ) :
    Prop where
  naming : namingOf plan p.registry = .ok d.registry
  account : ∃ made noted,
    Shows l plan start plan.components earlier p.registry p.assignments made noted ∧
    t.submissions = s.submissions ++ sentFor made noted
  last : p.lastCompleted = lastDone plan.components earlier
  fresh : ∀ c ∈ plan.components, start.contains c.name = false

end Invariants

section Preserved

variable {l : Ledger σ} {plan : Plan} {start : Registry} {s t t' : Session σ} {p : Progress}

theorem afterComponents_nil : AfterComponents l plan start s [] { registry := start } s where
  account := ⟨[], ⟨by simp, .nil, rfl, .nil⟩, by simp [sentFor]⟩
  last := rfl
  fresh := by simp

theorem AfterComponents.next {timeoutSecs : Nat} {earlier : List Component} {c : Component}
    {address : Address} {extended : Registry} (h : AfterComponents l plan start s earlier p t)
    (hdeployed : Deployed l timeoutSecs c p.registry t (.ok (address, extended)) t') :
    AfterComponents l plan start s (earlier ++ [c])
      ⟨extended, p.assignments, some s!"deployed {c.name}"⟩ t' := by
  obtain ⟨made, hshows, hsent⟩ := h.account
  obtain ⟨hfresh, m, hproduced, hjournal, hresources⟩ := resource_of_deployed hdeployed
  refine ⟨⟨made ++ [m], hshows.deploy hproduced hresources, ?_⟩, by simp [lastDone], ?_⟩
  · simp [hjournal, hsent, sentFor]
  · have hstart : start.contains c.name = false := by
      rw [Registry.contains, hshows.resources, List.any_append, Bool.or_eq_false_iff] at hfresh
      exact hfresh.1
    intro b hb
    rcases List.mem_append.1 hb with hb | hb
    · exact h.fresh b hb
    · rwa [List.mem_singleton.1 hb]

/-- At the desk, no step is taken yet. -/
theorem AfterComponents.desk {d : Desk} {name : String}
    (h : AfterComponents l plan start s plan.components p t) (hregistry : plan.registry = some name)
    (haddress : p.registry.address name = .ok d.registry) :
    AfterSteps l plan start s d [] p t := by
  obtain ⟨made, hshows, hsent⟩ := h.account
  exact ⟨by simp [namingOf, hregistry, haddress], ⟨made, [], hshows, hsent⟩, h.last, h.fresh⟩

theorem AfterSteps.next {d : Desk} {earlier : List WiringStep} {step : WiringStep}
    {made : Option Assignment} (h : AfterSteps l plan start s d earlier p t)
    (htaken : Taken l d p.registry step t (.ok made) t') :
    AfterSteps l plan start s d (earlier ++ [step])
      ⟨p.registry, p.assignments ++ made.toList, some step.describe⟩ t' := by
  obtain ⟨made, noted, hshows, hsent⟩ := h.account
  refine ⟨h.naming, ?_, by simp [lastDone], h.fresh⟩
  rcases record_of_taken htaken with ⟨hassigns, rfl, hjournal⟩ | ⟨m, hassigns, hrecorded, rfl, hjournal⟩
  · refine ⟨made, noted, ?_, hjournal.trans hsent⟩
    simpa using hshows.wait hassigns
  · rw [← h.naming] at hrecorded
    exact ⟨made, noted ++ [m], hshows.record hassigns hrecorded, by simp [hjournal, hsent, sentFor]⟩

end Preserved

theorem standing_of_run (l : Ledger σ) (plan : Plan) (settings : Settings) (start : Registry)
    (s : Session σ) :
    Ran l plan settings (AfterComponents l plan start s) (AfterSteps l plan start s)
      (run l plan settings start s).1 (run l plan settings start s).2 := by
  have hkept : Kept l plan settings (AfterComponents l plan start s)
      (AfterSteps l plan start s) :=
    { deployed := fun _ h hdeployed => h.next hdeployed
      desk := fun hregistry haddress h => h.desk hregistry haddress
      taken := fun _ h htaken => h.next htaken }
  exact hkept.ran afterComponents_nil

/-! ## Where a run ends -/

/-- **Where a run ends**: at the end of its plan, or in the step that the failure names.  It has to
show what the steps before that one made, and nothing else. -/
inductive Positioned (l : Ledger σ) (plan : Plan) (start : Registry) (s : Session σ) :
    Except Failure Report → Session σ → Prop where
  | complete {report : Report} {t : Session σ} {made : List (Submission × Resource)}
      {noted : List (Submission × Assignment)} (hstate : report.state = .complete)
      (hshows : Shows l plan start plan.components plan.wiring ⟨report.resources⟩
        report.assignments made noted)
      (hsent : t.submissions = s.submissions ++ sentFor made noted) :
      Positioned l plan start s (.ok report) t
  | deploying {index : Nat} {failure : Failure} {t : Session σ}
      {made : List (Submission × Resource)} (hindex : index < plan.components.length)
      (hstep : failure.failedStep = .deploying index) (hstate : failure.report.state = .failed)
      (hlast : failure.lastCompleted = lastDone (plan.components.take index) [])
      (hshows : Shows l plan start (plan.components.take index) [] ⟨failure.report.resources⟩
        failure.report.assignments made [])
      (hsent : s.submissions ++ sentFor made [] <+: t.submissions) :
      Positioned l plan start s (.error failure) t
  | wiring {index : Nat} {failure : Failure} {t : Session σ}
      {made : List (Submission × Resource)} {noted : List (Submission × Assignment)}
      (hindex : index < plan.wiring.length) (hcomponents : plan.components ≠ [])
      (hstep : failure.failedStep = .wiring index) (hstate : failure.report.state = .failed)
      (hlast : failure.lastCompleted = lastDone plan.components (plan.wiring.take index))
      (hshows : Shows l plan start plan.components (plan.wiring.take index)
        ⟨failure.report.resources⟩ failure.report.assignments made noted)
      (hsent : s.submissions ++ sentFor made noted <+: t.submissions) :
      Positioned l plan start s (.error failure) t

section Checked

variable {l : Ledger σ} {plan : Plan} {settings : Settings} {start : Registry} {s t t' : Session σ}
  {p : Progress}

/-- The naming registry of a checked plan is among the components deployed. -/
theorem AfterComponents.address_ne_error {name : String} {e : DeployError}
    (h : AfterComponents l plan start s plan.components p t) (hchecked : plan.Checked)
    (hregistry : plan.registry = some name) : p.registry.address name ≠ .error e := by
  intro haddress
  obtain ⟨made, hshows, -⟩ := h.account
  exact hshows.find?_ne_none (hchecked.registry name hregistry) (address_eq_error haddress).1

/-- A plan with steps has a naming registry, so it has components. -/
theorem components_ne_nil (hchecked : plan.Checked) (hwiring : plan.wiring ≠ []) :
    plan.components ≠ [] := by
  intro hnil
  cases hregistry : plan.registry with
  | none => exact hwiring (hchecked.wiring hregistry)
  | some name =>
    have hname := hchecked.registry name hregistry
    rw [hnil] at hname
    cases hname

theorem positioned_of_ran {outcome : Except Failure Report} (hchecked : plan.Checked)
    (h : Ran l plan settings (AfterComponents l plan start s) (AfterSteps l plan start s) outcome
      t) : Positioned l plan start s outcome t := by
  cases h with
  | deployed hregistry hdeployed =>
    obtain ⟨made, hshows, hsent⟩ := hdeployed.account
    rw [← hchecked.wiring hregistry] at hshows
    exact .complete rfl hshows hsent
  | wired hwired =>
    obtain ⟨made, noted, hshows, hsent⟩ := hwired.account
    exact .complete rfl hshows hsent
  | @deploying earlier later c _ _ _ _ hsplit hdeployed hfailed =>
    obtain ⟨made, hshows, hsent⟩ := hdeployed.account
    have htake : plan.components.take earlier.length = earlier := by rw [hsplit, List.take_left]
    have hindex : earlier.length < plan.components.length := by simp [hsplit]
    refine .deploying hindex rfl rfl ?_ (htake.symm ▸ hshows) ?_
    · rw [htake]
      exact hdeployed.last
    · exact hsent ▸ (left_of_deployed hfailed).submissions
  | unnamed hregistry haddress hdeployed =>
    exact absurd haddress (hdeployed.address_ne_error hchecked hregistry)
  | @wiring d earlier later step _ _ _ _ hsplit hwired hfailed =>
    obtain ⟨made, noted, hshows, hsent⟩ := hwired.account
    have htake : plan.wiring.take earlier.length = earlier := by rw [hsplit, List.take_left]
    have hindex : earlier.length < plan.wiring.length := by simp [hsplit]
    have hcomponents : plan.components ≠ [] := components_ne_nil hchecked (by simp [hsplit])
    refine .wiring hindex hcomponents rfl rfl ?_ (htake.symm ▸ hshows) ?_
    · rw [htake]
      exact hwired.last
    · exact hsent ▸ (left_of_taken hfailed).submissions

end Checked

/-- **The outcome of a run tells exactly where it ended.** -/
theorem position_run {components : List Component} {naming : Option String}
    {wiring : List WiringStep} {plan : Plan} (hplan : Plan.make components naming wiring = .ok plan)
    (l : Ledger σ) (settings : Settings) (start : Registry) (s : Session σ) :
    Positioned l plan start s (run l plan settings start s).1 (run l plan settings start s).2 :=
  positioned_of_ran (Plan.checked_of_make hplan) (standing_of_run l plan settings start s)

/-- A plan with a reference of each kind: to a component, a registry, a principal. -/
def resolving : Plan :=
  ⟨[{ name := "Root" }, { name := "Resolver", args := [.component "Root"] }], some "Root",
    [.bindResolver "" (.component "Resolver")]⟩

theorem position_run_resolving :
    Plan.make resolving.components resolving.registry resolving.wiring = .ok resolving ∧
      Positioned (Simulated.ledger Address.defaultDeployer) resolving {} { ledger := {} }
        (run (Simulated.ledger Address.defaultDeployer) resolving {} {} { ledger := {} }).1
        (run (Simulated.ledger Address.defaultDeployer) resolving {} {} { ledger := {} }).2 := by
  have hplan :
      Plan.make resolving.components resolving.registry resolving.wiring = .ok resolving := by cbv
  exact ⟨hplan, position_run hplan ..⟩

end Rollout.Run
