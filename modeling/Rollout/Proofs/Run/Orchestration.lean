import Rollout.Proofs.Run.Wiring

/-!
# Proofs/Run/Orchestration — the induction over a run

A run takes its steps in order until one fails (`inOrder_cases`).  What the start has and every step
keeps holds where the run ends, at the end of the plan or just before the step that failed:
`Kept.ran` says so for any two properties, one for each phase of a run.  Nothing after this module
unfolds a step or a run again.
-/

namespace Rollout.Run

variable {σ α : Type}

/-! ## One step after the other -/

section InOrder

variable (take : Nat → α → Progress → Session σ → Except Failure Progress × Session σ)

/-- The run of steps from some place on, where `done` are the steps before. -/
theorem inOrder_cases_from {P : List α → Progress → Session σ → Prop} (rest : List α) :
    ∀ (done : List α) {progress : Progress} {s : Session σ}, P done progress s →
      (∀ {earlier a later p t p' t'}, done ++ rest = earlier ++ a :: later → P earlier p t →
        take earlier.length a p t = (.ok p', t') → P (earlier ++ [a]) p' t') →
      (∃ p t, inOrder take done.length rest progress s = (.ok p, t) ∧ P (done ++ rest) p t) ∨
      ∃ earlier a later p t f t', done ++ rest = earlier ++ a :: later ∧ P earlier p t ∧
        take earlier.length a p t = (.error f, t') ∧
        inOrder take done.length rest progress s = (.error f, t') := by
  induction rest with
  | nil =>
    intro done progress s hstart _
    exact .inl ⟨progress, s, rfl, by simpa using hstart⟩
  | cons a rest ih =>
    intro done progress s hstart hstep
    rcases htake : take done.length a progress s with ⟨f | p, t⟩
    · exact .inr ⟨done, a, rest, progress, s, f, t, rfl, hstart, htake, by simp [inOrder, htake]⟩
    · have hnext := hstep rfl hstart htake
      have hrun : inOrder take done.length (a :: rest) progress s =
          inOrder take (done ++ [a]).length rest p t := by simp [inOrder, htake]
      -- the step moves from `rest` to `done`, and the whole list stays the same
      rw [List.append_cons] at hstep ⊢
      rw [hrun]
      exact ih (done ++ [a]) hnext hstep

/-- What holds at the start and is kept by each step holds after all steps, or up to the step that
failed. -/
theorem inOrder_cases {P : List α → Progress → Session σ → Prop} {steps : List α}
    {progress : Progress} {s : Session σ} (hstart : P [] progress s)
    (hstep : ∀ {earlier a later p t p' t'}, steps = earlier ++ a :: later → P earlier p t →
      take earlier.length a p t = (.ok p', t') → P (earlier ++ [a]) p' t') :
    (∃ p t, inOrder take 0 steps progress s = (.ok p, t) ∧ P steps p t) ∨
    ∃ earlier a later p t f t', steps = earlier ++ a :: later ∧ P earlier p t ∧
      take earlier.length a p t = (.error f, t') ∧
      inOrder take 0 steps progress s = (.error f, t') :=
  inOrder_cases_from take steps [] hstart hstep

end InOrder

section Next

variable {l : Ledger σ} {index : Nat} {progress : Progress} {s s' : Session σ}
  {r : Except Failure Progress}

theorem deployNext_cases {settings : Settings} {c : Component}
    (h : deployNext l settings index c progress s = (r, s')) :
    (∃ address registry, r = .ok { progress with
        registry
        lastCompleted := some s!"deployed {c.name}" } ∧
      Deployed l settings.confirmation.timeoutSecs c progress.registry s
        (.ok (address, registry)) s') ∨
    ∃ e, r = .error (progress.fail (.deploying index) e) ∧
      Deployed l settings.confirmation.timeoutSecs c progress.registry s (.error e) s' := by
  rw [deployNext] at h
  split at h <;> cases h
  · next address registry hdeploy => exact .inl ⟨address, registry, rfl, deployed_of_deploy hdeploy⟩
  · next e hdeploy => exact .inr ⟨e, rfl, deployed_of_deploy hdeploy⟩

theorem wireNext_cases {d : Desk} {policy : PropagationPolicy} {step : WiringStep}
    (h : wireNext l d policy index step progress s = (r, s')) :
    (∃ made, r = .ok { progress with
        assignments := progress.assignments ++ made.toList
        lastCompleted := some step.describe } ∧
      Taken l d progress.registry step s (.ok made) s') ∨
    ∃ e, r = .error (progress.fail (.wiring index) e) ∧
      Taken l d progress.registry step s (.error e) s' := by
  rw [wireNext] at h
  split at h <;> cases h
  · next made htake => exact .inl ⟨made, rfl, taken_of_takeStep htake⟩
  · next e htake => exact .inr ⟨e, rfl, taken_of_takeStep htake⟩

end Next

/-! ## Whole runs -/

/-- Two properties, one for each phase, that the steps of a run keep: every deployment, the passage
from the last deployment to the desk, and every wiring step. -/
structure Kept (l : Ledger σ) (plan : Plan) (settings : Settings)
    (D : List Component → Progress → Session σ → Prop)
    (W : Desk → List WiringStep → Progress → Session σ → Prop) : Prop where
  deployed : ∀ {earlier c later p t address registry t'}, plan.components = earlier ++ c :: later →
    D earlier p t →
    Deployed l settings.confirmation.timeoutSecs c p.registry t (.ok (address, registry)) t' →
    D (earlier ++ [c]) { p with registry, lastCompleted := some s!"deployed {c.name}" } t'
  desk : ∀ {name naming p t}, plan.registry = some name → p.registry.address name = .ok naming →
    D plan.components p t → W ⟨naming, settings.confirmation.timeoutSecs, settings.precheck⟩ [] p t
  taken : ∀ {d earlier step later p t made t'}, plan.wiring = earlier ++ step :: later →
    W d earlier p t → Taken l d p.registry step t (.ok made) t' →
    W d (earlier ++ [step]) { p with
      assignments := p.assignments ++ made.toList
      lastCompleted := some step.describe } t'

/-- How a run ends, if `D` holds of the components deployed so far and `W` of the steps taken so
far: at the end of both, or with the failure of the next one. -/
inductive Ran (l : Ledger σ) (plan : Plan) (settings : Settings)
    (D : List Component → Progress → Session σ → Prop)
    (W : Desk → List WiringStep → Progress → Session σ → Prop) :
    Except Failure Report → Session σ → Prop where
  | deployed {p : Progress} {t : Session σ} (hregistry : plan.registry = none)
      (hdeployed : D plan.components p t) : Ran l plan settings D W (.ok p.report) t
  | wired {d : Desk} {p : Progress} {t : Session σ} (hwired : W d plan.wiring p t) :
      Ran l plan settings D W (.ok p.report) t
  | deploying {earlier later : List Component} {c : Component} {p : Progress} {t t' : Session σ}
      {e : DeployError} (hsplit : plan.components = earlier ++ c :: later)
      (hdeployed : D earlier p t)
      (hfailed : Deployed l settings.confirmation.timeoutSecs c p.registry t (.error e) t') :
      Ran l plan settings D W (.error (p.fail (.deploying earlier.length) e)) t'
  | unnamed {name : String} {p : Progress} {t : Session σ} {e : DeployError}
      (hregistry : plan.registry = some name) (haddress : p.registry.address name = .error e)
      (hdeployed : D plan.components p t) :
      Ran l plan settings D W (.error (p.fail (stateAfterDeploying plan.components.length) e)) t
  | wiring {d : Desk} {earlier later : List WiringStep} {step : WiringStep} {p : Progress}
      {t t' : Session σ} {e : DeployError} (hsplit : plan.wiring = earlier ++ step :: later)
      (hwired : W d earlier p t) (hfailed : Taken l d p.registry step t (.error e) t') :
      Ran l plan settings D W (.error (p.fail (.wiring earlier.length) e)) t'

section Induction

variable {l : Ledger σ} {plan : Plan} {settings : Settings}
  {D : List Component → Progress → Session σ → Prop}
  {W : Desk → List WiringStep → Progress → Session σ → Prop}

theorem Kept.after_deployNext (h : Kept l plan settings D W) {earlier later : List Component}
    {c : Component} {p p' : Progress} {t t' : Session σ}
    (hsplit : plan.components = earlier ++ c :: later) (hp : D earlier p t)
    (hnext : deployNext l settings earlier.length c p t = (.ok p', t')) :
    D (earlier ++ [c]) p' t' := by
  rcases deployNext_cases hnext with ⟨address, registry, hr, hdeployed⟩ | ⟨e, hr, -⟩ <;> cases hr
  exact h.deployed hsplit hp hdeployed

theorem Kept.after_wireNext (h : Kept l plan settings D W) {d : Desk}
    {earlier later : List WiringStep} {step : WiringStep} {p p' : Progress} {t t' : Session σ}
    (hsplit : plan.wiring = earlier ++ step :: later) (hp : W d earlier p t)
    (hnext : wireNext l d settings.propagation earlier.length step p t = (.ok p', t')) :
    W d (earlier ++ [step]) p' t' := by
  rcases wireNext_cases hnext with ⟨made, hr, htaken⟩ | ⟨e, hr, -⟩ <;> cases hr
  exact h.taken hsplit hp htaken

/-- The second phase, from a registry with all components. -/
theorem Kept.ran_wire (h : Kept l plan settings D W) {p : Progress} {t : Session σ}
    (hdeployed : D plan.components p t) :
    Ran l plan settings D W ((wire l plan settings p t).1.map Progress.report)
      (wire l plan settings p t).2 := by
  cases hregistry : plan.registry with
  | none =>
    simp only [wire, hregistry]
    exact .deployed hregistry hdeployed
  | some name =>
    cases haddress : p.registry.address name with
    | error e =>
      simp only [wire, hregistry, haddress]
      exact .unnamed hregistry haddress hdeployed
    | ok naming =>
      have hdesk := h.desk hregistry haddress hdeployed
      simp only [wire, hregistry, haddress]
      rcases inOrder_cases (wireNext l _ settings.propagation) hdesk h.after_wireNext with
        ⟨q, u, hrun, hq⟩ | ⟨earlier, step, later, q, u, f, u', hsplit, hq, hfail, hrun⟩
      · rw [hrun]
        exact .wired hq
      · rw [hrun]
        rcases wireNext_cases hfail with ⟨_, hr, -⟩ | ⟨e, hr, htaken⟩ <;> cases hr
        exact .wiring hsplit hq htaken

/-- **The induction over a run.**  What holds at the start and is kept by every step holds where the
run ends. -/
theorem Kept.ran (h : Kept l plan settings D W) {registry : Registry} {s : Session σ}
    (hstart : D [] { registry } s) :
    Ran l plan settings D W (run l plan settings registry s).1
      (run l plan settings registry s).2 := by
  rcases inOrder_cases (deployNext l settings) hstart h.after_deployNext with
    ⟨p, t, hrun, hp⟩ | ⟨earlier, c, later, p, t, f, t', hsplit, hp, hfail, hrun⟩
  · have hwired := h.ran_wire hp
    rw [run, hrun]
    dsimp only
    generalize wire l plan settings p t = ended at hwired ⊢
    rcases ended with ⟨f | q, u⟩ <;> exact hwired
  · rw [run, hrun]
    rcases deployNext_cases hfail with ⟨_, _, hr, -⟩ | ⟨e, hr, hdeployed⟩ <;> cases hr
    exact .deploying hsplit hp hdeployed

end Induction

end Rollout.Run
