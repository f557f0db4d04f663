import Rollout.Proofs.Run.Orchestration

/-!
# Proofs/Run/Cut — a run up to one of its steps

A plan can be cut before any of its steps (`Plan.before`).  The run of the cut plan does the same as
the whole run, as far as it goes: cutting one step later adds what that one step does
(`stepped_of_run`), and a cut run that fails is the whole run (`run_of_cut`).  So the moments of a
run are the ends of its cuts.
-/

namespace Rollout

/-- The plan without the given step and all steps after it. -/
def Plan.before (plan : Plan) : RunState → Plan
  | .deploying index => ⟨plan.components.take index, none, []⟩
  | .wiring index => { plan with wiring := plan.wiring.take index }
  | _ => plan

/-- The step after a step of the same phase. -/
def RunState.next : RunState → RunState
  | .deploying index => .deploying (index + 1)
  | .wiring index => .wiring (index + 1)
  | state => state

namespace Run

variable {σ α : Type}

/-! ## One phase -/

section InOrder

variable {take : Nat → α → Progress → Session σ → Except Failure Progress × Session σ}

theorem inOrder_append (xs ys : List α) (index : Nat) (p : Progress) (s : Session σ) :
    inOrder take index (xs ++ ys) p s =
      match inOrder take index xs p s with
      | (.ok p, s) => inOrder take (index + xs.length) ys p s
      | (.error f, s) => (.error f, s) := by
  induction xs generalizing index p s with
  | nil => rfl
  | cons x xs ih =>
    rw [List.cons_append, inOrder, inOrder]
    rcases take index x p s with ⟨f | q, t⟩
    · rfl
    · dsimp only
      rw [ih, List.length_cons, Nat.add_right_comm, Nat.add_assoc]

/-- What fails in a part fails in the whole. -/
theorem inOrder_of_part {xs ys : List α} {index : Nat} {p : Progress} {s t : Session σ}
    {f : Failure} (hpart : xs <+: ys) (h : inOrder take index xs p s = (.error f, t)) :
    inOrder take index ys p s = (.error f, t) := by
  obtain ⟨rest, rfl⟩ := hpart
  rw [inOrder_append, h]

/-- One step more. -/
theorem inOrder_concat {xs : List α} {p q : Progress} {s t : Session σ}
    (h : inOrder take 0 xs p s = (.ok q, t)) (a : α) :
    inOrder take 0 (xs ++ [a]) p s = take xs.length a q t := by
  rw [inOrder_append, h]
  dsimp only
  rw [Nat.zero_add, inOrder]
  rcases take xs.length a q t with ⟨f | q, u⟩ <;> rfl

theorem inOrder_succ {steps : List α} {index : Nat} {p q : Progress} {s t : Session σ} {a : α}
    (hstep : steps[index]? = some a)
    (h : inOrder take 0 (steps.take index) p s = (.ok q, t)) :
    inOrder take 0 (steps.take (index + 1)) p s = take index a q t := by
  have hindex : index < steps.length := (List.getElem?_eq_some_iff.1 hstep).1
  have hlength : (steps.take index).length = index :=
    List.length_take_of_le (Nat.le_of_lt hindex)
  rw [List.take_add_one, hstep, Option.toList_some, inOrder_concat h, hlength]

end InOrder

/-! ## Whole runs -/

section Run

variable {l : Ledger σ} {plan : Plan} {settings : Settings} {start : Registry} {s t t' : Session σ}
  {f : Failure} {r : Except Failure Report} {p : Progress} {report : Report}

theorem run_of_deploying_error
    (h : inOrder (deployNext l settings) 0 plan.components { registry := start } s = (.error f, t)) :
    run l plan settings start s = (.error f, t) := by
  rw [run, h]

theorem run_of_deployed
    (h : inOrder (deployNext l settings) 0 plan.components { registry := start } s = (.ok p, t)) :
    run l plan settings start s =
      ((wire l plan settings p t).1.map Progress.report, (wire l plan settings p t).2) := by
  rw [run, h]
  dsimp only
  rcases wire l plan settings p t with ⟨f | q, u⟩ <;> rfl

/-- A run ends with its first failed deployment, or where its wiring ends. -/
theorem run_cases (h : run l plan settings start s = (r, t)) :
    (∃ f, inOrder (deployNext l settings) 0 plan.components { registry := start } s =
      (.error f, t) ∧ r = .error f) ∨
    ∃ p u outcome, inOrder (deployNext l settings) 0 plan.components { registry := start } s =
      (.ok p, u) ∧ wire l plan settings p u = (outcome, t) ∧ r = outcome.map Progress.report := by
  rcases hrun : inOrder (deployNext l settings) 0 plan.components { registry := start } s with
    ⟨f | p, u⟩
  · cases (run_of_deploying_error hrun).symm.trans h
    exact .inl ⟨f, rfl, rfl⟩
  · cases (run_of_deployed hrun).symm.trans h
    exact .inr ⟨p, u, _, rfl, rfl, rfl⟩

/-- A run of components alone ends where their deployments end. -/
theorem run_deploying_cases {index : Nat}
    (h : run l (plan.before (.deploying index)) settings start s = (r, t)) :
    ∃ outcome, inOrder (deployNext l settings) 0 (plan.components.take index)
      { registry := start } s = (outcome, t) ∧ r = outcome.map Progress.report := by
  rcases run_cases h with ⟨f, hrun, rfl⟩ | ⟨p, u, outcome, hrun, hwire, rfl⟩
  · exact ⟨.error f, hrun, rfl⟩
  · cases hwire
    exact ⟨.ok p, hrun, rfl⟩

theorem wire_before_error {index : Nat}
    (h : wire l (plan.before (.wiring index)) settings p s = (.error f, t)) :
    wire l plan settings p s = (.error f, t) := by
  cases hregistry : plan.registry with
  | none => simp [wire, Plan.before, hregistry] at h
  | some name =>
    cases haddress : p.registry.address name with
    | error e => simpa [wire, Plan.before, hregistry, haddress] using h
    | ok naming =>
      simp only [wire, Plan.before, hregistry, haddress] at h ⊢
      exact inOrder_of_part (List.take_prefix ..) h

/-- **A cut run that fails is the whole run.** -/
theorem run_of_cut {state : RunState}
    (h : run l (plan.before state) settings start s = (.error f, t)) :
    run l plan settings start s = (.error f, t) := by
  cases state with
  | deploying index =>
    obtain ⟨outcome, hrun, hr⟩ := run_deploying_cases h
    cases outcome with
    | error f' =>
      obtain rfl := Except.error.inj hr
      exact run_of_deploying_error (inOrder_of_part (List.take_prefix ..) hrun)
    | ok p => cases hr
  | wiring index =>
    rcases run_cases h with ⟨f', hrun, hf⟩ | ⟨p, u, outcome, hrun, hwire, hr⟩
    · obtain rfl := Except.error.inj hf
      exact run_of_deploying_error hrun
    · cases outcome with
      | error f' =>
        obtain rfl := Except.error.inj hr
        have hdeployed : inOrder (deployNext l settings) 0 plan.components { registry := start } s =
            (.ok p, u) := hrun
        rw [run_of_deployed hdeployed, wire_before_error hwire]
        rfl
      | ok q => cases hr
  | _ => exact h

/-! ## One step of a run -/

/-- What one step adds to a run whose earlier steps end with `report` in `t`: nothing, if there is
no such step. -/
inductive Stepped (l : Ledger σ) (settings : Settings) (report : Report) (t : Session σ) :
    RunState → Except Failure Report → Session σ → Prop where
  | nothing {state : RunState} : Stepped l settings report t state (.ok report) t
  | deploying {index : Nat} {c : Component} {p : Progress} {outcome : Except Failure Progress}
      {t' : Session σ} (hreport : report = p.report)
      (hnext : deployNext l settings index c p t = (outcome, t')) :
      Stepped l settings report t (.deploying index) (outcome.map Progress.report) t'
  | wiring {index : Nat} {naming : Address} {step : WiringStep} {p : Progress}
      {outcome : Except Failure Progress} {t' : Session σ} (hreport : report = p.report)
      (hnext : wireNext l ⟨naming, settings.confirmation.timeoutSecs, settings.precheck⟩
        settings.propagation index step p t = (outcome, t')) :
      Stepped l settings report t (.wiring index) (outcome.map Progress.report) t'

theorem stepped_of_deploying {index : Nat}
    (hbefore : run l (plan.before (.deploying index)) settings start s = (.ok report, t))
    (hnext : run l (plan.before (.deploying (index + 1))) settings start s = (r, t')) :
    Stepped l settings report t (.deploying index) r t' := by
  obtain ⟨done, hdone, hreport⟩ := run_deploying_cases hbefore
  obtain ⟨outcome, houtcome, rfl⟩ := run_deploying_cases hnext
  cases done with
  | error f => cases hreport
  | ok p =>
    obtain rfl := Except.ok.inj hreport
    cases hc : plan.components[index]? with
    | none =>
      rw [List.take_add_one, hc, Option.toList_none, List.append_nil, hdone] at houtcome
      cases houtcome
      exact .nothing
    | some c =>
      rw [inOrder_succ hc hdone] at houtcome
      exact .deploying rfl houtcome

/-- The wiring of a cut plan that went well, and one step more. -/
theorem wire_succ {index : Nat} {q : Progress}
    (hbefore : wire l (plan.before (.wiring index)) settings p s = (.ok q, t)) :
    wire l (plan.before (.wiring (index + 1))) settings p s = (.ok q, t) ∨
    ∃ naming step, wire l (plan.before (.wiring (index + 1))) settings p s =
      wireNext l ⟨naming, settings.confirmation.timeoutSecs, settings.precheck⟩
        settings.propagation index step q t := by
  cases hregistry : plan.registry with
  | none =>
    simp only [wire, Plan.before, hregistry] at hbefore ⊢
    exact .inl hbefore
  | some name =>
    cases haddress : p.registry.address name with
    | error e => simp [wire, Plan.before, hregistry, haddress] at hbefore
    | ok naming =>
      simp only [wire, Plan.before, hregistry, haddress] at hbefore ⊢
      cases hstep : plan.wiring[index]? with
      | none =>
        rw [List.take_add_one, hstep, Option.toList_none, List.append_nil]
        exact .inl hbefore
      | some step => exact .inr ⟨naming, step, inOrder_succ hstep hbefore⟩

theorem stepped_of_wiring {index : Nat}
    (hbefore : run l (plan.before (.wiring index)) settings start s = (.ok report, t))
    (hnext : run l (plan.before (.wiring (index + 1))) settings start s = (r, t')) :
    Stepped l settings report t (.wiring index) r t' := by
  rcases run_cases hbefore with ⟨f, hrun, hf⟩ | ⟨p, u, outcome, hrun, hwire, hreport⟩
  · cases hf
  · cases outcome with
    | error f => cases hreport
    | ok q =>
      obtain rfl := Except.ok.inj hreport
      rcases run_cases hnext with ⟨f, hrun', rfl⟩ | ⟨p', u', outcome, hrun', hwire', rfl⟩
      · cases hrun.symm.trans hrun'
      · cases hrun.symm.trans hrun'
        rcases wire_succ hwire with hsame | ⟨naming, step, hstep⟩
        · cases hsame.symm.trans hwire'
          exact .nothing
        · exact .wiring rfl (hstep.symm.trans hwire')

/-- **Cutting one step later adds what that one step does.** -/
theorem stepped_of_run {state : RunState}
    (hbefore : run l (plan.before state) settings start s = (.ok report, t))
    (hnext : run l (plan.before state.next) settings start s = (r, t')) :
    Stepped l settings report t state r t' := by
  cases state with
  | deploying index => exact stepped_of_deploying hbefore hnext
  | wiring index => exact stepped_of_wiring hbefore hnext
  | _ =>
    cases hbefore.symm.trans hnext
    exact .nothing

end Run

end Run

end Rollout
