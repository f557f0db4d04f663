import Rollout.Proofs.Run.Names
import Rollout.Proofs.Run.Places

/-!
# Proofs/Run/Rerun — a rollout that is run again

What a run of a checked plan reports, successful or not, is a registry again: its resources have the
names of the first components of the plan (`names_of_positioned`), which differ.  A second run that
starts from them finds the name of its first component taken and stops before it does anything,
whatever the ledger, the settings and the token (`run_of_contains`).
-/

namespace Rollout.Run

variable {σ : Type} {l : Ledger σ} {plan : Plan} {start registry : Registry}

/-! ## Resources as a registry -/

theorem put_of_notMem {resource : Resource} (h : resource.name ∉ registry.names) :
    registry.put resource = .ok ⟨registry.resources ++ [resource]⟩ := by
  have hfresh : registry.contains resource.name = false := by
    rw [← Bool.not_eq_true]
    exact fun hpresent => h (contains_eq_true_iff.1 hpresent)
  rw [Registry.put, hfresh]
  rfl

/-- Resources with different names can be put into a registry one after the other. -/
theorem foldlM_put {resources : List Resource} (start : Registry)
    (h : (start.names ++ resources.map Resource.name).Nodup) :
    resources.foldlM Registry.put start = .ok ⟨start.resources ++ resources⟩ := by
  induction resources generalizing start with
  | nil =>
    rw [List.append_nil]
    rfl
  | cons resource resources ih =>
    have hnotMem : resource.name ∉ start.names := by
      intro hmem
      exact List.disjoint_of_nodup_append h hmem (List.mem_cons_self ..)
    have hnext : (Registry.names ⟨start.resources ++ [resource]⟩ ++
        resources.map Resource.name).Nodup := by
      simpa [Registry.names] using h
    have hrest := ih ⟨start.resources ++ [resource]⟩ hnext
    rw [List.append_assoc, List.singleton_append] at hrest
    rw [List.foldlM_cons, put_of_notMem hnotMem]
    exact hrest

/-! ## The first run -/

/-- What a run reports has the names of the first components of its plan. -/
theorem names_of_positioned {s t : Session σ} {outcome : Except Failure Report}
    (h : Positioned l plan {} s outcome t) :
    ∃ n, (reportOf outcome).resources.map Resource.name =
      (plan.components.take n).map Component.name := by
  cases h with
  | complete _ hshows =>
    exact ⟨plan.components.length, by rw [List.take_length]; exact hshows.names⟩
  | @deploying index _ _ _ _ _ _ _ hshows => exact ⟨index, hshows.names⟩
  | wiring _ _ _ _ _ hshows =>
    exact ⟨plan.components.length, by rw [List.take_length]; exact hshows.names⟩

/-- Where anything was deployed, the first component was. -/
theorem contains_of_names {resources : List Resource} {n : Nat}
    (hnames : resources.map Resource.name = (plan.components.take n).map Component.name)
    (hresources : resources ≠ []) :
    ∃ c later, plan.components = c :: later ∧
      Registry.contains ⟨resources⟩ c.name = true := by
  have hsome : plan.components.take n ≠ [] := by
    intro hnil
    rw [hnil, List.map_nil, List.map_eq_nil_iff] at hnames
    exact hresources hnames
  obtain ⟨c, deployed, hdeployed⟩ := List.exists_cons_of_ne_nil hsome
  have hcomponents : plan.components = c :: (deployed ++ plan.components.drop n) := by
    rw [← List.cons_append, ← hdeployed, List.take_append_drop]
  have hpresent : c.name ∈ Registry.names ⟨resources⟩ := by
    rw [Registry.names, hnames, hdeployed]
    exact List.mem_cons_self ..
  exact ⟨c, _, hcomponents, contains_eq_true_iff.2 hpresent⟩

/-! ## The second run -/

/-- A run whose first component is there already stops before it does anything. -/
theorem run_of_contains {c : Component} {later : List Component}
    (hcomponents : plan.components = c :: later) (hpresent : registry.contains c.name = true)
    (l : Ledger σ) (settings : Settings) (s : Session σ) :
    run l plan settings registry s =
      (.error ⟨.duplicateName c.name, .deploying 0, none, ⟨.failed, registry.resources, []⟩⟩, s) := by
  have hdeploy : deploy l settings.confirmation.timeoutSecs c registry s =
      (.error (.duplicateName c.name), s) := by
    rw [deploy, hpresent]
    rfl
  rw [run, hcomponents, inOrder, deployNext, hdeploy]
  rfl

/-- **A plan cannot be run from these resources**: they make up a registry, and every run that
starts from it finds the name of the first component taken, and leaves its session as it was. -/
structure Barred (plan : Plan) (resources : List Resource) : Prop where
  registered : resources.foldlM Registry.put {} = .ok ⟨resources⟩
  run : ∃ c, plan.components.head? = some c ∧
    ∀ {τ : Type} (l : Ledger τ) (settings : Settings) (s : Session τ), ∃ failure,
      run l plan settings ⟨resources⟩ s = (.error failure, s) ∧
      failure.error = .duplicateName c.name ∧ failure.failedStep = .deploying 0 ∧
      failure.lastCompleted = none ∧ failure.pending = none ∧ failure.report.resources = resources

/-- **What was deployed is not deployed again**: whatever made a run from nothing stop, a plan
cannot be run from the resources of its report. -/
theorem barred_run {components : List Component} {naming : Option String} {wiring : List WiringStep}
    (hplan : Plan.make components naming wiring = .ok plan) (l : Ledger σ) (settings : Settings)
    (s : Session σ) (hresources : (reportOf (run l plan settings {} s).1).resources ≠ []) :
    Barred plan (reportOf (run l plan settings {} s).1).resources := by
  have hchecked := Plan.checked_of_make hplan
  obtain ⟨n, hnames⟩ :=
    names_of_positioned (positioned_of_ran hchecked (standing_of_run l plan settings {} s))
  generalize (reportOf (run l plan settings {} s).1).resources = resources at hnames hresources ⊢
  have hnodup : (resources.map Resource.name).Nodup := by
    rw [hnames]
    exact hchecked.nodup.sublist ((List.take_sublist n _).map _)
  obtain ⟨c, later, hcomponents, hpresent⟩ := contains_of_names hnames hresources
  refine ⟨foldlM_put {} hnodup, c, by rw [hcomponents]; rfl, fun l settings s => ?_⟩
  exact ⟨_, run_of_contains hcomponents hpresent l settings s, rfl, rfl, rfl, rfl, rfl⟩

/-- A token that fires at the third look, when one component is deployed and the next is not. -/
def interrupting : Session Unit :=
  { ledger := (), token := { looksLeft := some 3 } }

theorem barred_run_interrupting :
    Plan.make resolving.components resolving.registry resolving.wiring = .ok resolving ∧
      (reportOf (run granting resolving {} {} interrupting).1).resources.length = 1 ∧
      Barred resolving (reportOf (run granting resolving {} {} interrupting).1).resources := by
  have hplan :
      Plan.make resolving.components resolving.registry resolving.wiring = .ok resolving := by cbv
  have hlength : (reportOf (run granting resolving {} {} interrupting).1).resources.length = 1 := rfl
  have hresources : (reportOf (run granting resolving {} {} interrupting).1).resources ≠ [] := by
    intro hnil
    rw [hnil] at hlength
    cases hlength
  exact ⟨hplan, hlength, barred_run hplan granting {} interrupting hresources⟩

end Rollout.Run
