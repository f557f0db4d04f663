import Rollout.Proofs.Run.Position

/-!
# Proofs/Run/Names — names never fail a run that started fresh

Every name that a checked plan mentions is deployed by the time the run looks it up, so no look-up
fails.  A name can only be taken already if the start has it, as after an earlier run: then the run
ends at the first component with such a name, at the latest, and does not create it again
(`names_run`).
-/

namespace Rollout.Run

variable {σ α : Type}

/-! ## Errors about names -/

section Errors

variable {l : Ledger σ} {timeoutSecs : Nat} {operation : Operation} {request : Request}
  {refusal : LedgerError → DeployError} {c : Component} {registry : Registry} {d : Desk}
  {step : WiringStep} {s s' : Session σ} {e : DeployError}

/-- A transaction never fails because of a name. -/
theorem aboutName_of_bind_error {f : Receipt → Except DeployError α}
    {outcome : Except DeployError Receipt} (hrefusal : ∀ error, aboutName (refusal error) = false)
    (hf : ∀ receipt e, f receipt = .error e → aboutName e = false)
    (h : transact l timeoutSecs operation request refusal s = (outcome, s'))
    (he : outcome.bind f = .error e) : aboutName e = false := by
  cases transacted_of_transact h with
  | unsent hledger hjournal =>
    cases he
    rfl
  | refused hsubmit hjournal =>
    cases he
    exact hrefusal _
  | unanswered hsubmit herror hledger hjournal =>
    cases he
    rcases herror with rfl | rfl <;> rfl
  | @answered _ _ _ _ answer _ hsubmit hawait hjournal =>
    cases answer with
    | ok receipt => exact hf receipt e he
    | error error =>
      cases he
      rfl

/-- Why a deployment can fail: its name is taken, a name it refers to is missing, or it has nothing
to do with names. -/
theorem cause_of_deployed (h : Deployed l timeoutSecs c registry s (.error e) s') :
    (registry.contains c.name = true ∧ e = .duplicateName c.name) ∨
    (∃ name ∈ c.references, registry.find? name = none) ∨ aboutName e = false := by
  generalize hr : Except.error e = r at h
  cases h with
  | duplicate hpresent => exact .inl ⟨hpresent, Except.error.inj hr⟩
  | unresolved hfresh hcreation =>
    obtain ⟨name, hname, hmissing, -⟩ := creationOf_eq_error hcreation
    exact .inr (.inl ⟨name, hname, hmissing⟩)
  | sent hfresh hcreation htransact =>
    refine .inr (.inr (aboutName_of_bind_error (fun error => ?_) (fun receipt e he => ?_) htransact
      hr.symm))
    · cases error <;> rfl
    · obtain ⟨fault, rfl⟩ := created_eq_error he
      rfl

/-- Why a wiring step can fail: a component it refers to is missing, or it has nothing to do with
names. -/
theorem cause_of_taken (h : Taken l d registry step s (.error e) s') :
    (∃ name, .component name ∈ step.principals ∧ registry.find? name = none) ∨
    aboutName e = false := by
  generalize hr : Except.error e = r at h
  cases h with
  | waited hquiet hintent => cases hr
  | stopped hquiet hpending hcause =>
    cases hr
    rcases hcause with ⟨p, hp, hresolve⟩ | hname
    · cases p with
      | component name => exact .inl ⟨name, hp, (address_eq_error hresolve).1⟩
      | _ => cases hresolve
    · exact .inr hname
  | called hintent hquiet htransact =>
    refine .inr (aboutName_of_bind_error (fun error => ?_) (fun receipt e he => ?_) htransact
      hr.symm)
    · cases error <;> rfl
    · obtain ⟨fault, rfl⟩ := record_eq_error he
      rfl

/-- A name that is taken stops a deployment before anything happens. -/
theorem duplicate_of_deployed (h : Deployed l timeoutSecs c registry s (.error e) s')
    (hpresent : registry.contains c.name = true) : e = .duplicateName c.name ∧ s' = s := by
  generalize hr : Except.error e = r at h
  cases h with
  | duplicate => exact ⟨Except.error.inj hr, rfl⟩
  | unresolved hfresh => cases hpresent.symm.trans hfresh
  | sent hfresh => cases hpresent.symm.trans hfresh

end Errors

/-! ## Creations -/

/-- A creation is that of one name only. -/
theorem Creates.name_eq {b c : Component} {request : Request} (h : Creates b request)
    (h' : Creates c request) : b.name = c.name := by
  obtain ⟨_, _, rfl⟩ := h
  obtain ⟨_, _, hrequest⟩ := h'
  injections

theorem creates_of_mem {deployed : List Component} {made : List (Submission × Resource)}
    (h : List.Forall₂ Produced deployed made) {m : Submission × Resource} (hm : m ∈ made) :
    ∃ c ∈ deployed, Creates c m.1.request := by
  obtain ⟨c, hc, hproduced⟩ := forall₂_mem_right h hm
  exact ⟨c, hc, hproduced.1⟩

/-- A deployment that fails has submitted nothing but its own creation. -/
theorem creates_of_deployed {l : Ledger σ} {timeoutSecs : Nat} {c : Component} {registry : Registry}
    {s s' : Session σ} {e : DeployError} (h : Deployed l timeoutSecs c registry s (.error e) s') :
    Sends (fun x => Creates c x.request) s s' := by
  cases left_of_deployed h with
  | nothing hjournal hpending => exact .of_same hjournal
  | @submission x hjournal hrequest hpending =>
    obtain ⟨creation, hcreation, hcreate⟩ := map_eq_ok (Option.some.inj hrequest)
    obtain ⟨args, libraries, -, -, rfl⟩ := creationOf_eq_ok hcreation
    exact .of_one hjournal ⟨args, libraries, hcreate.symm⟩

/-! ## Names of the start -/

/-- Of two places in a list, the one is not after the other if the element there is not before the
other. -/
theorem split_of_notMem {earlier earlier' later later' : List α} {a b : α}
    (h : earlier ++ a :: later = earlier' ++ b :: later') (hnot : a ∉ earlier') :
    ∃ between, earlier = earlier' ++ between ∧ b :: later' = between ++ a :: later := by
  rcases List.append_eq_append_iff.1 h with ⟨between, hearlier, hlater⟩ | hsplit
  · cases between with
    | nil => exact ⟨[], by simpa using hearlier.symm, hlater.symm⟩
    | cons c between =>
      obtain ⟨rfl, -⟩ := List.cons.inj hlater
      exact absurd (hearlier ▸ List.mem_append_right _ (List.mem_cons_self ..)) hnot
  · exact hsplit

/-- The first component whose name the start has: where a run has to stop. -/
structure FirstTaken (plan : Plan) (start : Registry) (earlier : List Component) (c : Component) :
    Prop where
  split : ∃ later, plan.components = earlier ++ c :: later
  taken : start.contains c.name = true
  fresh : ∀ b ∈ earlier, start.contains b.name = false

section Standing

variable {l : Ledger σ} {plan : Plan} {settings : Settings} {start : Registry} {s t t' : Session σ}
  {p : Progress} {e : DeployError} {earlier later : List Component} {c : Component}

namespace FirstTaken

theorem mem (h : FirstTaken plan start earlier c) : c ∈ plan.components := by
  obtain ⟨later, hsplit⟩ := h.split
  rw [hsplit]
  exact List.mem_append_right _ (List.mem_cons_self ..)

/-- It is not among components that could be deployed. -/
theorem notMem (h : FirstTaken plan start earlier c) {deployed : List Component}
    (hfresh : ∀ b ∈ deployed, start.contains b.name = false) : c ∉ deployed := by
  intro hmem
  cases h.taken.symm.trans (hfresh c hmem)

/-- The creation of a component before it is not its own. -/
theorem not_creates (h : FirstTaken plan start earlier c) {b : Component} {request : Request}
    (hb : b ∈ earlier) (hcreates : Creates b request) : ¬ Creates c request := by
  intro hown
  have hfresh := h.fresh b hb
  rw [hcreates.name_eq hown] at hfresh
  cases h.taken.symm.trans hfresh

end FirstTaken

namespace AfterComponents

/-- What has been submitted so far are creations of the components before. -/
theorem sends (h : AfterComponents l plan start s earlier p t) :
    Sends (fun x => ∃ b ∈ earlier, Creates b x.request) s t := by
  obtain ⟨made, hshows, hsent⟩ := h.account
  refine ⟨_, hsent, fun x hx => ?_⟩
  rw [sentFor, List.map_nil, List.append_nil] at hx
  obtain ⟨m, hm, rfl⟩ := List.mem_map.1 hx
  exact creates_of_mem hshows.produced hm

theorem mem_names_iff (h : AfterComponents l plan start s earlier p t) {name : String} :
    name ∈ p.registry.names ↔ name ∈ start.names ∨ name ∈ earlier.map Component.name := by
  obtain ⟨made, hshows, -⟩ := h.account
  rw [hshows.names, List.mem_append]

/-- A component fails because of its name only if the start has the name. -/
theorem firstTaken (h : AfterComponents l plan start s earlier p t) (hchecked : plan.Checked)
    (hsplit : plan.components = earlier ++ c :: later)
    (hpresent : p.registry.contains c.name = true) : FirstTaken plan start earlier c where
  split := ⟨later, hsplit⟩
  taken := by
    rcases h.mem_names_iff.1 (contains_eq_true_iff.1 hpresent) with hstart | hearlier
    · exact contains_eq_true_iff.2 hstart
    · exact absurd hearlier (hchecked.name_notMem hsplit)
  fresh := h.fresh

end AfterComponents

/-! ## Names of a run -/

/-- A run of a checked plan fails for a name only at the first component whose name the start has. -/
theorem cause_of_ran {failure : Failure} (hchecked : plan.Checked)
    (h : Ran l plan settings (AfterComponents l plan start s) (AfterSteps l plan start s)
      (.error failure) t) :
    (∃ earlier c, FirstTaken plan start earlier c ∧ failure.error = .duplicateName c.name ∧
      failure.failedStep = .deploying earlier.length) ∨ aboutName failure.error = false := by
  generalize hr : Except.error failure = outcome at h
  cases h with
  | deployed => cases hr
  | wired => cases hr
  | deploying hsplit hdeployed hfailed =>
    cases hr
    rcases cause_of_deployed hfailed with ⟨hpresent, he⟩ | ⟨name, hname, hmissing⟩ | he
    · exact .inl ⟨_, _, hdeployed.firstTaken hchecked hsplit hpresent, he, rfl⟩
    · have hearlier := hchecked.references hsplit name hname
      have hfound := find?_ne_none_iff.2 (hdeployed.mem_names_iff.2 (.inr hearlier))
      exact absurd hmissing hfound
    · exact .inr he
  | unnamed hregistry haddress hdeployed =>
    exact absurd haddress (hdeployed.address_ne_error hchecked hregistry)
  | wiring hsplit hwired hfailed =>
    cases hr
    rcases cause_of_taken hfailed with ⟨name, hname, hmissing⟩ | he
    · obtain ⟨made, noted, hshows, -⟩ := hwired.account
      have hstep := hchecked.principals _ (by simp [hsplit]) name hname
      exact absurd hmissing (hshows.find?_ne_none hstep)
    · exact .inr he

/-- Where the deployments stop, if the start has names of the plan. -/
theorem stopped_of_deploying {deployed : List Component} {b : Component}
    (hfirst : FirstTaken plan start earlier c) (hsplit : plan.components = deployed ++ b :: later)
    (hdeployed : AfterComponents l plan start s deployed p t)
    (hfailed : Deployed l settings.confirmation.timeoutSecs b p.registry t (.error e) t') :
    (deployed.length < earlier.length ∨
      deployed.length = earlier.length ∧ e = .duplicateName c.name) ∧
    Sends (fun x => ∃ b ∈ earlier, Creates b x.request) s t' := by
  obtain ⟨rest, hfirstsplit⟩ := hfirst.split
  obtain ⟨between, hearlier, hrest⟩ :=
    split_of_notMem (hfirstsplit.symm.trans hsplit) (hfirst.notMem hdeployed.fresh)
  cases between with
  | nil =>
    obtain ⟨rfl, -⟩ := List.cons.inj hrest
    rw [List.append_nil] at hearlier
    subst hearlier
    have hpresent : p.registry.contains b.name = true :=
      contains_eq_true_iff.2 (hdeployed.mem_names_iff.2 (.inl (contains_eq_true_iff.1 hfirst.taken)))
    obtain ⟨he, rfl⟩ := duplicate_of_deployed hfailed hpresent
    exact ⟨.inr ⟨rfl, he⟩, hdeployed.sends⟩
  | cons b' between =>
    obtain ⟨rfl, -⟩ := List.cons.inj hrest
    have hlength : deployed.length < earlier.length := by simp [hearlier]
    have hbefore : Sends (fun x => ∃ d ∈ earlier, Creates d x.request) s t :=
      hdeployed.sends.imp fun x ⟨d, hd, hcreates⟩ =>
        ⟨d, hearlier ▸ List.mem_append_left _ hd, hcreates⟩
    have hown : Sends (fun x => ∃ d ∈ earlier, Creates d x.request) t t' :=
      (creates_of_deployed hfailed).imp fun x hcreates => ⟨b, by simp [hearlier], hcreates⟩
    exact ⟨.inl hlength, hbefore.trans hown⟩

/-- Where a run stops, if the start has names of the plan. -/
theorem stopped_of_ran {outcome : Except Failure Report} (hfirst : FirstTaken plan start earlier c)
    (hchecked : plan.Checked)
    (h : Ran l plan settings (AfterComponents l plan start s) (AfterSteps l plan start s) outcome
      t) :
    ∃ failure index, outcome = .error failure ∧ failure.failedStep = .deploying index ∧
      (index < earlier.length ∨ index = earlier.length ∧ failure.error = .duplicateName c.name) ∧
      Sends (fun x => (∃ b ∈ earlier, Creates b x.request) ∧ ¬ Creates c x.request) s t := by
  -- past all deployments, no name of the plan was in the start
  cases h with
  | deployed hregistry hdeployed => exact absurd hfirst.mem (hfirst.notMem hdeployed.fresh)
  | wired hwired => exact absurd hfirst.mem (hfirst.notMem hwired.fresh)
  | deploying hsplit hdeployed hfailed =>
    obtain ⟨hstop, hsends⟩ := stopped_of_deploying hfirst hsplit hdeployed hfailed
    refine ⟨_, _, rfl, rfl, hstop, hsends.imp fun x ⟨b, hb, hcreates⟩ => ?_⟩
    exact ⟨⟨b, hb, hcreates⟩, hfirst.not_creates hb hcreates⟩
  | unnamed hregistry haddress hdeployed =>
    exact absurd haddress (hdeployed.address_ne_error hchecked hregistry)
  | wiring hsplit hwired hfailed => exact absurd hfirst.mem (hfirst.notMem hwired.fresh)

end Standing

/-- **What names can do to a run.** -/
structure Named (plan : Plan) (start : Registry) (s : Session σ) (outcome : Except Failure Report)
    (t : Session σ) : Prop where
  /-- Nothing that the plan refers to is ever missing. -/
  resolved : ∀ failure name, outcome = .error failure →
    failure.error ≠ .unresolvedDependency name
  /-- A name that fails a run as a duplicate was in the start. -/
  duplicate : ∀ failure name, outcome = .error failure → failure.error = .duplicateName name →
    ∃ earlier c, FirstTaken plan start earlier c ∧ c.name = name ∧
      failure.failedStep = .deploying earlier.length
  /-- If the start has names of the plan, the run stops at the first such component at the latest,
  and submits nothing but the creations of components before it. -/
  stopped : ∀ earlier c, FirstTaken plan start earlier c →
    ∃ failure index, outcome = .error failure ∧ failure.failedStep = .deploying index ∧
      (index < earlier.length ∨ index = earlier.length ∧ failure.error = .duplicateName c.name) ∧
      Sends (fun x => (∃ b ∈ earlier, Creates b x.request) ∧ ¬ Creates c x.request) s t

/-- **Names never fail a run**, except those that the start has already; there the run stops, and
nothing is created twice. -/
theorem names_run {components : List Component} {naming : Option String} {wiring : List WiringStep}
    {plan : Plan} (hplan : Plan.make components naming wiring = .ok plan) (l : Ledger σ)
    (settings : Settings) (start : Registry) (s : Session σ) :
    Named plan start s (run l plan settings start s).1 (run l plan settings start s).2 := by
  have hchecked := Plan.checked_of_make hplan
  have hran := standing_of_run l plan settings start s
  generalize run l plan settings start s = ended at hran ⊢
  obtain ⟨outcome, t⟩ := ended
  constructor
  case resolved =>
    rintro failure name rfl herror
    rcases cause_of_ran hchecked hran with ⟨_, _, -, hduplicate, -⟩ | hname
    · cases herror.symm.trans hduplicate
    · rw [herror] at hname
      cases hname
  case duplicate =>
    rintro failure name rfl herror
    rcases cause_of_ran hchecked hran with ⟨earlier, c, hfirst, hduplicate, hstep⟩ | hname
    · have hsame := DeployError.duplicateName.inj (hduplicate.symm.trans herror)
      exact ⟨earlier, c, hfirst, hsame, hstep⟩
    · rw [herror] at hname
      cases hname
  case stopped =>
    intro earlier c hfirst
    exact stopped_of_ran hfirst hchecked hran

/-- A start that has a name of the plan already. -/
def resumed : Registry :=
  ⟨[⟨"Resolver", .zero 20, .zero 32, 0⟩]⟩

theorem names_run_resumed :
    Plan.make resolving.components resolving.registry resolving.wiring = .ok resolving ∧
      ∃ failure index,
        (run (Simulated.ledger Address.defaultDeployer) resolving {} resumed { ledger := {} }).1 =
          .error failure ∧ failure.failedStep = .deploying index ∧
        (index < 1 ∨ index = 1 ∧ failure.error = .duplicateName "Resolver") ∧
        Sends (fun x => (∃ b ∈ [{ name := "Root" }], Creates b x.request) ∧
            ¬ Creates { name := "Resolver", args := [.component "Root"] } x.request)
          { ledger := {} }
          (run (Simulated.ledger Address.defaultDeployer) resolving {} resumed { ledger := {} }).2 := by
  have hplan :
      Plan.make resolving.components resolving.registry resolving.wiring = .ok resolving := by cbv
  have hnamed := names_run hplan (Simulated.ledger Address.defaultDeployer) {} resumed
    { ledger := {} }
  have hfirst : FirstTaken resolving resumed [{ name := "Root" }]
      { name := "Resolver", args := [.component "Root"] } :=
    { split := ⟨[], rfl⟩
      taken := by decide
      fresh := by decide }
  exact ⟨hplan, hnamed.stopped _ _ hfirst⟩

end Rollout.Run
