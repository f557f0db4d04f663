import Rollout.Proofs.Run.Report

/-!
# Proofs/Run/Contracts — what the contracts of a run were built from

A run looks up the arguments of a component in the resources it has at that moment.  What it finds
there is what the report says in the end: a name that a component refers to is deployed before, once,
and nowhere in the start, so it has one address in every later registry.  Hence the contract of every
component that a run deployed holds the declared arguments, each name replaced by its address in the
report (`contracts_run`).
-/

namespace Rollout.Run

open Simulated (World State Contract)

variable {ε α β γ : Type}

/-! ## Lists and maps -/

theorem forall₂_of_mapM {f : α → Except ε β} {R : α → β → Prop} {as : List α} {bs : List β}
    (h : as.mapM f = .ok bs) (hR : ∀ a ∈ as, ∀ b, f a = .ok b → R a b) : List.Forall₂ R as bs := by
  induction as generalizing bs with
  | nil =>
    cases h
    exact .nil
  | cons a as ih =>
    rw [List.mapM_cons] at h
    obtain ⟨b, hb, h⟩ := bind_eq_ok h
    obtain ⟨rest, hrest, h⟩ := bind_eq_ok h
    cases h
    have hhead : R a b := hR a (List.mem_cons_self ..) b hb
    exact .cons hhead (ih hrest fun c hc => hR c (List.mem_cons_of_mem _ hc))

/-- A key that occurs once is found. -/
theorem lookup_of_mem {K V : Type} [DecidableEq K] {key : K} {value : V} {entries : List (K × V)}
    (hnodup : (entries.map Prod.fst).Nodup) (h : (key, value) ∈ entries) :
    Assoc.lookup key entries = some value := by
  induction entries with
  | nil => cases h
  | cons entry rest ih =>
    obtain ⟨hfirst, hrest⟩ := List.nodup_cons.1 hnodup
    rcases List.mem_cons.1 h with rfl | hmem
    · rw [Assoc.lookup, if_pos rfl]
    · have hother : entry.1 ≠ key := fun hsame => hfirst (hsame ▸ List.mem_map_of_mem hmem)
      rw [Assoc.lookup, if_neg hother, ih hrest hmem]

/-! ## Arguments and contracts as a report tells them -/

/-- Whether a name has the given address among the resources, and no other. -/
def Located (resources : List Resource) (name : String) (address : Address) : Prop :=
  (∃ r ∈ resources, r.name = name ∧ r.address = address) ∧
    ∀ r ∈ resources, r.name = name → r.address = address

/-- **What a declared argument stands for**, going by the resources of a report. -/
inductive Stands (deployer : Address) (resources : List Resource) : Argument → AbiValue → Prop where
  | uint (value : Uint256) : Stands deployer resources (.uint value) (.uint value)
  | address (a : Address) : Stands deployer resources (.address a) (.address a)
  | node (path : String) : Stands deployer resources (.node path) (.bytes32 (Naming.node path))
  | deployer : Stands deployer resources .deployer (.address deployer)
  | component {name : String} {a : Address} (hlocated : Located resources name a) :
      Stands deployer resources (.component name) (.address a)

/-- **A resource is the contract of its component**: the ledger holds, at its address, the contract
that the component names, created with what its arguments stand for. -/
def BuiltFrom (deployer : Address) (resources : List Resource) (state : State) (c : Component)
    (r : Resource) : Prop :=
  r.name = c.name ∧ ∃ contract, state.contracts.get? r.address = some contract ∧
    contract.contract = c.contractName ∧ contract.creator = deployer ∧
    List.Forall₂ (Stands deployer resources) c.args contract.args

/-! ## The components deployed -/

section Made

variable {deployer : Address} {start registry : Registry} {deployed : List Component}
  {made : List (Creation × Resource)}

/-- The creations are those of the components, one by one. -/
theorem Made.forall₂ (h : Made deployer start deployed registry made) :
    List.Forall₂ (fun c m => creationOf registry deployer c = .ok m.1 ∧ m.2.name = c.name) deployed
      made := by
  have hcreations : List.Forall₂ (fun c m => creationOf registry deployer c = .ok m.1) deployed
      made := by
    have hsame : List.Forall₂ (· = ·) (deployed.map (creationOf registry deployer))
        (made.map fun m => .ok m.1) := by rw [List.forall₂_eq_eq_eq, h.creations]
    exact List.forall₂_map_left_iff.1 (List.forall₂_map_right_iff.1 hsame)
  refine List.forall₂_iff_zip.2 ⟨hcreations.length_eq, fun {c m} hzip => ?_⟩
  have hcreation := List.forall₂_zip hcreations hzip
  obtain ⟨args, libraries, -, -, hm⟩ := creationOf_eq_ok hcreation
  have hname := h.names m (List.of_mem_zip hzip).2
  exact ⟨hcreation, by rw [hname, hm]⟩

theorem Made.names_eq (h : Made deployer start deployed registry made) :
    (made.map Prod.snd).map Resource.name = deployed.map Component.name := by
  have hall := h.forall₂
  clear h
  induction hall with
  | nil => rfl
  | cons hm _ ih => rw [List.map_cons, List.map_cons, List.map_cons, ih, hm.2]

/-- A resource with the name of a component that was deployed is not one of the start. -/
theorem Made.mem_of_name (h : Made deployer start deployed registry made)
    (hfresh : ∀ c ∈ deployed, start.contains c.name = false) {r : Resource}
    (hr : r ∈ registry.resources) (hname : r.name ∈ deployed.map Component.name) :
    r ∈ made.map Prod.snd := by
  rw [h.resources] at hr
  refine (List.mem_append.1 hr).resolve_left fun hstart => ?_
  obtain ⟨c, hc, hsame⟩ := List.mem_map.1 hname
  have htaken : start.contains c.name = true := by
    rw [contains_eq_true_iff, Registry.names, hsame]
    exact List.mem_map_of_mem hstart
  exact Bool.false_ne_true ((hfresh c hc).symm.trans htaken)

/-- A name that was deployed has one address in the registry. -/
theorem Made.located (h : Made deployer start deployed registry made)
    (hnodup : (deployed.map Component.name).Nodup)
    (hfresh : ∀ c ∈ deployed, start.contains c.name = false) {name : String} {a : Address}
    (hname : name ∈ deployed.map Component.name) (haddress : registry.address name = .ok a) :
    Located registry.resources name a := by
  rw [Registry.address] at haddress
  split at haddress
  · next found hfound =>
    obtain rfl := Except.ok.inj haddress
    have hmem : found ∈ registry.resources := List.mem_of_find?_eq_some hfound
    have hfoundname : found.name = name := by simpa using List.find?_some hfound
    have hmade : found ∈ made.map Prod.snd := h.mem_of_name hfresh hmem (hfoundname ▸ hname)
    refine ⟨⟨found, hmem, hfoundname, rfl⟩, fun r hr hrname => ?_⟩
    have hrmade : r ∈ made.map Prod.snd := h.mem_of_name hfresh hr (hrname ▸ hname)
    rw [← h.names_eq] at hnodup
    rw [List.inj_on_of_nodup_map hnodup hrmade hmade (hrname.trans hfoundname.symm)]
  · cases haddress

/-- What was made of the component at some place. -/
theorem Made.get (h : Made deployer start deployed registry made) {k : Nat} {c : Component}
    (hk : deployed[k]? = some c) :
    ∃ m ∈ made, creationOf registry deployer c = .ok m.1 ∧ m.2.name = c.name ∧
      m.2.address = deployer.ofCreation k := by
  have hall := h.forall₂
  have hlength : k < made.length := by
    rw [← hall.length_eq]
    exact (List.getElem?_eq_some_iff.1 hk).1
  have hm : made[k]? = some made[k] := List.getElem?_eq_getElem hlength
  have hzip : (c, made[k]) ∈ deployed.zip made :=
    List.mem_of_getElem? (List.getElem?_zip_eq_some.2 ⟨hk, hm⟩)
  obtain ⟨hcreation, hname⟩ := List.forall₂_zip hall hzip
  have haddress := congrArg (·[k]?) h.addresses
  simp only [List.getElem?_map, hm, List.getElem?_range hlength, Option.map_some,
    Option.some.injEq] at haddress
  exact ⟨made[k], List.getElem_mem hlength, hcreation, hname, haddress⟩

/-- The component at some place is found at the address of that creation. -/
theorem Made.address_of_get (h : Made deployer start deployed registry made)
    (hnodup : (deployed.map Component.name).Nodup)
    (hfresh : ∀ c ∈ deployed, start.contains c.name = false) {k : Nat} {c : Component}
    (hk : deployed[k]? = some c) : registry.address c.name = .ok (deployer.ofCreation k) := by
  obtain ⟨m, hm, -, hname, haddress⟩ := h.get hk
  have hmem : m.2 ∈ registry.resources := by
    rw [h.resources]
    exact List.mem_append_right _ (List.mem_map_of_mem hm)
  have hc : c.name ∈ deployed.map Component.name := List.mem_map_of_mem (List.mem_of_getElem? hk)
  cases hfound : registry.address c.name with
  | error e =>
    refine absurd (address_eq_error hfound).1 (find?_ne_none_iff.2 ?_)
    exact hname ▸ List.mem_map_of_mem hmem
  | ok a =>
    have hlocated := (h.located hnodup hfresh hc hfound).2 m.2 hmem hname
    rw [← hlocated, haddress]

/-- The arguments of a creation are what the declared arguments stand for. -/
theorem Made.stands (h : Made deployer start deployed registry made)
    (hnodup : (deployed.map Component.name).Nodup)
    (hfresh : ∀ c ∈ deployed, start.contains c.name = false) {args : List Argument}
    {values : List AbiValue} (hargs : resolveArguments registry deployer args = .ok values)
    (hnames : ∀ name ∈ args.filterMap Argument.component?, name ∈ deployed.map Component.name) :
    List.Forall₂ (Stands deployer registry.resources) args values := by
  refine forall₂_of_mapM hargs fun arg harg value hvalue => ?_
  cases arg with
  | component name =>
    obtain ⟨a, haddress, rfl⟩ := map_eq_ok hvalue
    have hname : name ∈ deployed.map Component.name :=
      hnames name (List.mem_filterMap.2 ⟨_, harg, rfl⟩)
    exact .component (h.located hnodup hfresh hname haddress)
  | uint value =>
    cases hvalue
    exact .uint value
  | address a =>
    cases hvalue
    exact .address a
  | node path =>
    cases hvalue
    exact .node path
  | deployer =>
    cases hvalue
    exact .deployer

end Made

/-- Components of a checked plan that are deployed so far refer to one another only. -/
theorem references_mem {plan : Plan} (hchecked : plan.Checked) {deployed : List Component}
    (hpart : deployed <+: plan.components) {c : Component} (hc : c ∈ deployed) :
    ∀ name ∈ c.references, name ∈ deployed.map Component.name := by
  obtain ⟨later, hplan⟩ := hpart
  obtain ⟨earlier, between, rfl⟩ := List.append_of_mem hc
  rw [List.append_assoc, List.cons_append] at hplan
  intro name hname
  have hearlier := hchecked.references hplan.symm name hname
  rw [List.map_append]
  exact List.mem_append_left _ hearlier

/-! ## Where a run ends -/

/-- Where a run ends, as far as contracts are concerned: `deployed` are the components whose
creations are `made`, and their contracts are on the ledger. -/
structure Deploys (deployer : Address) (plan : Plan) (start : Registry) (resources : List Resource)
    (state : State) (deployed : List Component) (made : List (Creation × Resource)) : Prop where
  part : deployed <+: plan.components
  account : Made deployer start deployed ⟨resources⟩ made
  fresh : ∀ c ∈ deployed, start.contains c.name = false
  contracts : ∀ m ∈ made, state.contracts.get? m.2.address =
    some ⟨m.1.contract, deployer, m.1.args⟩

section Deploys

variable {deployer : Address} {plan : Plan} {start : Registry} {resources : List Resource}
  {state state' : State} {deployed : List Component} {made : List (Creation × Resource)}

theorem Deploys.builtFrom (h : Deploys deployer plan start resources state deployed made)
    (hchecked : plan.Checked) :
    List.Forall₂ (BuiltFrom deployer resources state) deployed (made.map Prod.snd) := by
  have hnodup : (deployed.map Component.name).Nodup :=
    hchecked.nodup.sublist (h.part.map Component.name).sublist
  have hall := h.account.forall₂
  rw [List.forall₂_map_right_iff]
  refine List.forall₂_iff_zip.2 ⟨hall.length_eq, fun {c m} hzip => ?_⟩
  obtain ⟨hcreation, hname⟩ := List.forall₂_zip hall hzip
  obtain ⟨hc, hm⟩ := List.of_mem_zip hzip
  obtain ⟨args, libraries, hargs, -, hcreated⟩ := creationOf_eq_ok hcreation
  have hnames := references_mem hchecked h.part hc
  have hstands := h.account.stands hnodup h.fresh hargs fun name hname =>
    hnames name (List.mem_append_left _ hname)
  refine ⟨hname, _, h.contracts m hm, ?_, rfl, ?_⟩
  · rw [hcreated]
  · rw [hcreated]
    exact hstands

/-- The addresses of what was made are distinct, and so are its contracts. -/
theorem Made.contracts {registry : Registry} (h : Made deployer start deployed registry made)
    {n : Nat} (hn : made.length ≤ n)
    (hdistinct : ∀ i j, i < n → j < n → deployer.ofCreation i = deployer.ofCreation j → i = j) :
    ∀ m ∈ made, (built deployer made).contracts.get? m.2.address =
      some ⟨m.1.contract, deployer, m.1.args⟩ := by
  have hnodup : ((made.map (entryOf deployer)).map Prod.fst).Nodup := by
    have haddresses : (made.map (entryOf deployer)).map Prod.fst =
        (List.range made.length).map deployer.ofCreation := by
      rw [List.map_map, ← h.addresses]
      rfl
    rw [haddresses]
    refine List.Nodup.map_on (fun i hi j hj hsame => ?_) List.nodup_range
    have hi := List.mem_range.1 hi
    have hj := List.mem_range.1 hj
    exact hdistinct i j (by omega) (by omega) hsame
  intro m hm
  exact lookup_of_mem hnodup (List.mem_map_of_mem hm)

/-- The contract of the component at some place holds the arguments that the names stand for. -/
theorem Made.contract_of_get {registry : Registry}
    (h : Made deployer start deployed registry made) {n : Nat} (hn : made.length ≤ n)
    (hdistinct : ∀ i j, i < n → j < n → deployer.ofCreation i = deployer.ofCreation j → i = j)
    {k : Nat} {c : Component} (hk : deployed[k]? = some c) :
    ∃ args, resolveArguments registry deployer c.args = .ok args ∧
      (built deployer made).contracts.get? (deployer.ofCreation k) =
        some ⟨c.contractName, deployer, args⟩ := by
  obtain ⟨m, hm, hcreation, -, haddress⟩ := h.get hk
  obtain ⟨args, libraries, hargs, -, hcreated⟩ := creationOf_eq_ok hcreation
  refine ⟨args, hargs, ?_⟩
  rw [← haddress, h.contracts hn hdistinct m hm, hcreated]

theorem Deploys.mono (h : Deploys deployer plan start resources state deployed made)
    (hsame : ∀ m ∈ made, state'.contracts.get? m.2.address = state.contracts.get? m.2.address) :
    Deploys deployer plan start resources state' deployed made :=
  { h with contracts := fun m hm => (hsame m hm).trans (h.contracts m hm) }

end Deploys

/-- A failed step leaves the contracts as they were, except for one that it created. -/
theorem Halted.contracts {deployer address : Address} {request : Option (Except DeployError Request)}
    {w w' : World} {e : DeployError} (h : Halted deployer request w w' e)
    (hother : ∀ c, request = some (.ok (.create c)) → address ≠ deployer.ofCreation w.state.nonce) :
    w'.state.contracts.get? address = w.state.contracts.get? address := by
  cases h with
  | kept hpending hsame =>
    have hcontracts : w'.state.contracts = w.state.contracts :=
      (congrArg State.contracts hsame.holdings :)
    rw [hcontracts]
  | @unknown r transaction hrequest hpending hsame =>
    have hcontracts : w'.state.contracts = (Simulated.submit deployer r w).2.state.contracts :=
      (congrArg State.contracts hsame.holdings :)
    rw [hcontracts]
    exact Simulated.get?_contracts_submit fun c hc => hother c (hc ▸ hrequest)

section Ran

variable {deployer : Address} {plan : Plan} {settings : Settings} {start : Registry}
  {faults : Simulated.Faults} {p : Progress} {s t t' : Session World}

theorem Built.deploys {earlier : List Component} (h : Built deployer start faults earlier p t)
    (hpart : earlier <+: plan.components) (hfresh : ∀ c ∈ earlier, start.contains c.name = false)
    (hdistinct : ∀ i j, i < plan.components.length → j < plan.components.length →
      deployer.ofCreation i = deployer.ofCreation j → i = j) :
    ∃ made, t.ledger.state.nonce = made.length ∧
      Deploys deployer plan start p.registry.resources t.ledger.state earlier made := by
  obtain ⟨-, -, made, hmade, hholdings⟩ := h
  have hlength : made.length ≤ plan.components.length :=
    hmade.forall₂.length_eq ▸ hpart.length_le
  refine ⟨made, congrArg State.nonce hholdings, hpart, hmade, hfresh, fun m hm => ?_⟩
  have hcontracts : t.ledger.state.contracts = (built deployer made).contracts :=
    (congrArg State.contracts hholdings :)
  rw [hcontracts]
  exact hmade.contracts hlength hdistinct m hm

theorem Wired.deploys {d : Desk} {earlier : List WiringStep}
    (h : Wired deployer plan start faults d earlier p t)
    (hfresh : ∀ c ∈ plan.components, start.contains c.name = false)
    (hdistinct : ∀ i j, i < plan.components.length → j < plan.components.length →
      deployer.ofCreation i = deployer.ofCreation j → i = j) :
    ∃ made, Deploys deployer plan start p.registry.resources t.ledger.state plan.components
      made := by
  obtain ⟨-, -, -, made, hmade, hholdings⟩ := h
  have hlength : made.length ≤ plan.components.length := Nat.le_of_eq hmade.forall₂.length_eq.symm
  refine ⟨made, List.prefix_rfl, hmade, hfresh, fun m hm => ?_⟩
  have hcontracts : t.ledger.state.contracts = (built deployer made).contracts :=
    (congrArg State.contracts hholdings).trans (contracts_replay ..)
  rw [hcontracts]
  exact hmade.contracts hlength hdistinct m hm

/-- Whatever stops a run, its report and the ledger agree on the components deployed. -/
theorem deploys_of_ran {outcome : Except Failure Report}
    (hdistinct : ∀ i j, i < plan.components.length → j < plan.components.length →
      deployer.ofCreation i = deployer.ofCreation j → i = j)
    (h : Ran (Simulated.ledger deployer) plan settings
      (fun earlier p t => Built deployer start faults earlier p t ∧
        AfterComponents (Simulated.ledger deployer) plan start s earlier p t)
      (fun d earlier p t => Wired deployer plan start faults d earlier p t ∧
        AfterSteps (Simulated.ledger deployer) plan start s d earlier p t) outcome t) :
    ∃ deployed made, Deploys deployer plan start (reportOf outcome).resources t.ledger.state
      deployed made := by
  cases h with
  | deployed hregistry hdeployed =>
    obtain ⟨made, -, hdeploys⟩ := hdeployed.1.deploys List.prefix_rfl hdeployed.2.fresh hdistinct
    exact ⟨_, made, hdeploys⟩
  | wired hwired =>
    obtain ⟨made, hdeploys⟩ := hwired.1.deploys hwired.2.fresh hdistinct
    exact ⟨_, made, hdeploys⟩
  | @deploying earlier later c p t _ e hsplit hdeployed hfailed =>
    obtain ⟨made, hnonce, hdeploys⟩ :=
      hdeployed.1.deploys ⟨_, hsplit.symm⟩ hdeployed.2.fresh hdistinct
    have hlength : made.length < plan.components.length := by
      rw [← hdeploys.account.forall₂.length_eq, hsplit]
      simp
    have hfresh := hdeploys.account.fresh hdistinct hlength
    refine ⟨_, made, hdeploys.mono fun m hm => ?_⟩
    refine (halted_of_deployed hfailed).contracts fun _ _ => ?_
    rw [hnonce]
    exact hfresh m hm
  | unnamed hregistry haddress hdeployed =>
    obtain ⟨made, -, hdeploys⟩ := hdeployed.1.deploys List.prefix_rfl hdeployed.2.fresh hdistinct
    exact ⟨_, made, hdeploys⟩
  | wiring hsplit hwired hfailed =>
    obtain ⟨made, hdeploys⟩ := hwired.1.deploys hwired.2.fresh hdistinct
    refine ⟨_, made, hdeploys.mono fun m hm => ?_⟩
    refine (halted_of_taken hfailed).contracts fun c hcreate => ?_
    -- a wiring step asks for a call
    obtain ⟨intent, -, hcall⟩ := Option.map_eq_some_iff.1 hcreate
    obtain ⟨i, -, hi⟩ := map_eq_ok hcall
    cases hi

end Ran

/-- **Every contract is built from the addresses that the report gives.**  `produced` are the
resources that the run added; of the addresses that the deployer gives to contracts, only those of
the first creations have to be distinct. -/
theorem contracts_run {components : List Component} {naming : Option String}
    {wiring : List WiringStep} {plan : Plan} {deployer : Address} {s : Session World}
    (hplan : Plan.make components naming wiring = .ok plan) (hfresh : s.ledger.state = {})
    (hdistinct : ∀ i j, i < plan.components.length → j < plan.components.length →
      deployer.ofCreation i = deployer.ofCreation j → i = j)
    (settings : Settings) (start : Registry) :
    ∃ produced, (reportOf (run (Simulated.ledger deployer) plan settings start s).1).resources =
        start.resources ++ produced ∧
      List.Forall₂ (BuiltFrom deployer
        (reportOf (run (Simulated.ledger deployer) plan settings start s).1).resources
        (run (Simulated.ledger deployer) plan settings start s).2.ledger.state)
        (plan.components.take produced.length) produced := by
  have hkept : Kept (Simulated.ledger deployer) plan settings
      (fun earlier p t => Built deployer start s.ledger.faults earlier p t ∧
        AfterComponents (Simulated.ledger deployer) plan start s earlier p t)
      (fun d earlier p t => Wired deployer plan start s.ledger.faults d earlier p t ∧
        AfterSteps (Simulated.ledger deployer) plan start s d earlier p t) :=
    { deployed := fun hsplit h hdeployed =>
        ⟨h.1.next hdistinct hsplit hdeployed _, h.2.next hdeployed⟩
      desk := fun hregistry haddress h =>
        ⟨h.1.desk hregistry haddress, h.2.desk hregistry haddress⟩
      taken := fun _ h htaken => ⟨h.1.next htaken _, h.2.next htaken⟩ }
  obtain ⟨deployed, made, hdeploys⟩ :=
    deploys_of_ran hdistinct (hkept.ran ⟨built_nil hfresh, afterComponents_nil⟩)
  have hbuilt := hdeploys.builtFrom (Plan.checked_of_make hplan)
  have htake : plan.components.take (made.map Prod.snd).length = deployed := by
    rw [← hbuilt.length_eq]
    exact (List.prefix_iff_eq_take.1 hdeploys.part).symm
  exact ⟨made.map Prod.snd, hdeploys.account.resources, htake.symm ▸ hbuilt⟩

theorem contracts_run_resolving :
    Plan.make resolving.components resolving.registry resolving.wiring = .ok resolving ∧
      ∃ produced, (reportOf (run (Simulated.ledger Address.defaultDeployer) resolving {} {}
          { ledger := {} }).1).resources = [] ++ produced ∧
        List.Forall₂ (BuiltFrom Address.defaultDeployer
          (reportOf (run (Simulated.ledger Address.defaultDeployer) resolving {} {}
            { ledger := {} }).1).resources
          (run (Simulated.ledger Address.defaultDeployer) resolving {} {}
            { ledger := {} }).2.ledger.state)
          (resolving.components.take produced.length) produced := by
  have hplan :
      Plan.make resolving.components resolving.registry resolving.wiring = .ok resolving := by cbv
  exact ⟨hplan, contracts_run (s := { ledger := {} }) hplan rfl ofCreation_inj_resolving {} {}⟩

end Rollout.Run
