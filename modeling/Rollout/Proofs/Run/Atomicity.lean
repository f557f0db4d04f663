import Rollout.Proofs.Run.Names

/-!
# Proofs/Run/Atomicity — a deployment happens as a whole or not at all

A deployment reads its registry and, at its end, adds to it.  Seen as steps on one registry that is
written in place (`deployInPlace`), it comes to what `deploy` tells of a registry before and a
registry after (`deployInPlace_eq`), so a deployment that fails at any of its steps has written
nothing.

What keeps it from submitting anything is known before (`hindrance?`).  With nothing in the way it
submits its creation, once; from then on no name can fail it, and a receipt that tells of a contract
is recorded (`Atomic`).
-/

namespace Rollout.Run

variable {σ α β : Type}

/-! ## A registry in place -/

/-- A step of a run that also has a registry, and may write to it. -/
abbrev Recording (σ α : Type) := ExceptT DeployError (StateM (Session σ × Registry)) α

namespace Recording

/-- A step that does not use the registry. -/
def ofAction (x : Action σ α) : Recording σ α := fun (s, registry) =>
  let (r, s') := x s
  (r, (s', registry))

/-- The registry as it is. -/
def registry : Recording σ Registry := fun (s, registry) => (.ok registry, (s, registry))

/-- Writes a resource to the registry, unless its name is taken. -/
def put (resource : Resource) : Recording σ Unit := fun (s, registry) =>
  match registry.put resource with
  | .ok extended => (.ok (), (s, extended))
  | .error e => (.error e, (s, registry))

end Recording

/-- Creates a component and records it in place. -/
def deployInPlace (l : Ledger σ) (timeoutSecs : Nat) (c : Component) : Recording σ Address := do
  let registry ← Recording.registry
  if registry.contains c.name then
    throw (.duplicateName c.name)
  let creation ← .ofAction (ofExcept (creationOf registry l.deployer c))
  let receipt ← .ofAction
    (transact l timeoutSecs (.creation c.name) (.create creation) (creationError c.name))
  let address ← .ofAction (ofExcept (createdAddress c.name receipt))
  .put { name := c.name, address, transaction := receipt.transaction, block := receipt.block }
  pure address

theorem Recording.bind_apply (x : Recording σ α) (f : α → Recording σ β)
    (p : Session σ × Registry) :
    (x >>= f) p = match x p with
      | (.ok a, q) => f a q
      | (.error e, q) => (.error e, q) := by
  change (match x p with | (a, q) => ExceptT.bindCont f a q) = _
  rcases x p with ⟨e | a, q⟩ <;> rfl

/-- A step that does not use the registry passes it on. -/
theorem Recording.ofAction_bind (x : Action σ α) (f : α → Recording σ β) (s : Session σ)
    (registry : Registry) :
    (ofAction x >>= f) (s, registry) = match x s with
      | (.ok a, t) => f a (t, registry)
      | (.error e, t) => (.error e, (t, registry)) := by
  rw [bind_apply, ofAction]
  rcases x s with ⟨e | a, t⟩ <;> rfl

/-- **A deployment in place is a deployment**, which adds to the registry if it succeeds and leaves
it alone otherwise. -/
theorem deployInPlace_eq (l : Ledger σ) (timeoutSecs : Nat) (c : Component) (registry : Registry)
    (s : Session σ) :
    deployInPlace l timeoutSecs c (s, registry) =
      match deploy l timeoutSecs c registry s with
      | (.ok (address, extended), t) => (.ok address, (t, extended))
      | (.error e, t) => (.error e, (t, registry)) := by
  rw [deploy, deployInPlace, Recording.bind_apply]
  dsimp only [Recording.registry]
  cases hpresent : registry.contains c.name with
  | true => rfl
  | false =>
    simp only [Bool.false_eq_true, if_false]
    rw [Recording.ofAction_bind, bind_apply]
    cases creationOf registry l.deployer c with
    | error e => rfl
    | ok creation =>
      dsimp only [ofExcept]
      rw [Recording.ofAction_bind, bind_apply]
      rcases transact l timeoutSecs (.creation c.name) (.create creation) (creationError c.name) s
        with ⟨e | receipt, t⟩
      · rfl
      · dsimp only
        rw [Recording.ofAction_bind, bind_apply]
        cases createdAddress c.name receipt with
        | error e => rfl
        | ok address =>
          dsimp only [ofExcept]
          rw [Recording.bind_apply, bind_apply, Recording.put]
          cases registry.put ⟨c.name, address, receipt.transaction, receipt.block⟩ <;> rfl

/-! ## What keeps a component from being created -/

variable {l : Ledger σ} {timeoutSecs : Nat} {c : Component} {registry : Registry}
  {s s' : Session σ} {operation : Operation} {request : Request}
  {refusal : LedgerError → DeployError} {outcome : Except DeployError Receipt}

/-- Something can be resolved but for a missing name, if there is one. -/
def Resolves (missing? : Option String) (result : Except DeployError α) : Prop :=
  match missing? with
  | some name => result = .error (.unresolvedDependency name)
  | none => ∃ a, result = .ok a

theorem Resolves.map {missing? : Option String} {result : Except DeployError α}
    (h : Resolves missing? result) (f : α → β) : Resolves missing? (result.map f) := by
  cases missing? with
  | none =>
    obtain ⟨a, rfl⟩ := h
    exact ⟨f a, rfl⟩
  | some name =>
    obtain rfl := h
    rfl

/-- The first name of the registry's that is missing among some. -/
def missing? (registry : Registry) (names : List String) : Option String :=
  names.find? (· ∉ registry.names)

theorem resolves_address (registry : Registry) (name : String) :
    Resolves (missing? registry [name]) (registry.address name) := by
  have hnames : registry.find? name ≠ none ↔ name ∈ registry.names := find?_ne_none_iff
  rw [Registry.address, missing?, List.find?_singleton]
  cases hfind : registry.find? name with
  | none =>
    have hmissing : name ∉ registry.names := fun hmem => hnames.2 hmem hfind
    simp [hmissing, Resolves]
  | some resource =>
    have hfound : name ∈ registry.names := hnames.1 (by simp [hfind])
    simp [hfound, Resolves]

/-- A list can be resolved but for the first name that an element is missing. -/
theorem resolves_mapM {f : α → Except DeployError β} {names : α → List String}
    (hf : ∀ a, Resolves (missing? registry (names a)) (f a)) (as : List α) :
    Resolves (missing? registry (as.flatMap names)) (as.mapM f) := by
  induction as with
  | nil => exact ⟨[], rfl⟩
  | cons a as ih =>
    have ha := hf a
    rw [missing?] at ha ih ⊢
    rw [List.flatMap_cons, List.find?_append, List.mapM_cons]
    cases hfirst : (names a).find? (· ∉ registry.names) with
    | some name =>
      rw [hfirst] at ha
      obtain ha : f a = .error (.unresolvedDependency name) := ha
      rw [ha]
      rfl
    | none =>
      rw [hfirst] at ha
      obtain ⟨b, ha⟩ := ha
      rw [ha, Option.none_or]
      exact ih.map (b :: ·)

theorem resolves_argument (registry : Registry) (deployer : Address) (arg : Argument) :
    Resolves (missing? registry arg.component?.toList) (resolveArgument registry deployer arg) := by
  cases arg with
  | component name => exact (resolves_address registry name).map AbiValue.address
  | _ => exact ⟨_, rfl⟩

/-- **A creation can be resolved but for the first missing component**, arguments before
libraries. -/
theorem resolves_creationOf (registry : Registry) (deployer : Address) (c : Component) :
    Resolves (missing? registry c.references) (creationOf registry deployer c) := by
  have hargs := resolves_mapM (resolves_argument registry deployer) c.args
  have hlink (link : LibraryLink) : Resolves (missing? registry [link.component])
      ((registry.address link.component).map fun a => (link.library, a)) :=
    (resolves_address registry link.component).map _
  have hlibraries := resolves_mapM hlink c.libraries
  have hreferences : c.references = (c.args.flatMap fun arg => arg.component?.toList) ++
      c.libraries.flatMap fun link => [link.component] := by
    rw [Component.references, List.filterMap_eq_flatMap_toList, List.map_eq_flatMap]
  rw [hreferences, missing?, List.find?_append]
  rw [missing?] at hargs hlibraries
  rw [creationOf]
  cases hfirst : (c.args.flatMap fun arg => arg.component?.toList).find? (· ∉ registry.names) with
  | some name =>
    rw [hfirst] at hargs
    obtain hargs : resolveArguments registry deployer c.args =
      .error (.unresolvedDependency name) := hargs
    rw [hargs]
    rfl
  | none =>
    rw [hfirst] at hargs
    obtain ⟨args, hargs⟩ := hargs
    obtain hargs : resolveArguments registry deployer c.args = .ok args := hargs
    rw [hargs, Option.none_or]
    exact hlibraries.map (Creation.mk c.name c.contractName args)

/-- The first thing in the way of a creation, if there is one: the name is taken, a component that
is referred to is missing, or the token has fired. -/
def hindrance? (c : Component) (registry : Registry) (s : Session σ) : Option DeployError :=
  if c.name ∈ registry.names then some (.duplicateName c.name)
  else
    match missing? registry c.references with
    | some name => some (.unresolvedDependency name)
    | none => if s.look.token.fired then some (.cancelled (.creation c.name) none) else none

/-! ## One submission -/

/-- A transaction is not sent if the token has fired. -/
theorem transact_of_fired (hfired : s.look.token.fired = true) :
    transact l timeoutSecs operation request refusal s =
      (.error (.cancelled operation none), s.look) := by
  have hlook : ensureNotCancelled operation s = (.error (.cancelled operation none), s.look) := by
    rw [ensureNotCancelled, hfired]
    rfl
  exact bind_of_error _ hlook

theorem transact_of_unfired (hfired : s.look.token.fired = false) :
    transact l timeoutSecs operation request refusal s =
      (submit l request refusal >>= fun transaction =>
        confirm l transaction timeoutSecs operation) s.look := by
  have hlook : ensureNotCancelled operation s = (.ok (), s.look) := by
    rw [ensureNotCancelled, hfired]
    rfl
  exact bind_of_ok _ hlook

/-- Past the look at the token, one request is added to the journal. -/
theorem length_submissions_of_submit {r : Except DeployError Receipt}
    (h : (submit l request refusal >>= fun transaction =>
      confirm l transaction timeoutSecs operation) s = (r, s')) :
    s'.submissions.length = s.submissions.length + 1 := by
  rcases bind_cases h with ⟨transaction, t, hsend, hconfirm⟩ | ⟨e, hsend, rfl⟩
  · obtain ⟨answer, -, -, hjournal⟩ := submit_cases hsend
    cases awaited_of_confirm hconfirm with
    | answered _ hsettled => rw [hsettled, submissions_settle _ hjournal]; simp
    | unanswered _ _ hsame => rw [hsame, hjournal]; simp
  · obtain ⟨answer, -, -, hjournal⟩ := submit_cases hsend
    rw [hjournal]
    simp

/-- **One submission**, of the given request, in time, with the answers of the ledger. -/
structure SubmittedOnce (l : Ledger σ) (request : Request) (s s' : Session σ) (x : Submission) :
    Prop where
  journal : s'.submissions = s.submissions ++ [x]
  asked : x.request = request
  inTime : x.late = false
  answer : x.answer = (l.submit request s.ledger).1
  settlement : ∀ answer, x.settlement = some answer → ∃ transaction limit elapsed,
    x.answer = .ok transaction ∧
    l.await transaction limit (l.submit request s.ledger).2 = .settled elapsed answer s'.ledger

/-- A transaction that the token does not stop is submitted once, and has a receipt exactly if the
wait for it brought one. -/
theorem submitted_of_transact (hfired : s.look.token.fired = false)
    (h : transact l timeoutSecs operation request refusal s = (outcome, s')) :
    ∃ x, SubmittedOnce l request s s' x ∧
      ∀ receipt, outcome = .ok receipt ↔ x.settlement = some (.ok receipt) := by
  rw [transact_of_unfired hfired] at h
  have hlength := length_submissions_of_submit h
  cases transacted_of_submit hfired h with
  | unsent hledger hjournal =>
    rw [hjournal] at hlength
    change s.submissions.length = s.submissions.length + 1 at hlength
    omega
  | @refused error _ hsubmit hjournal =>
    refine ⟨_, ⟨hjournal, rfl, rfl, by rw [hsubmit], ?_⟩, fun receipt => ?_⟩
    · rintro answer ⟨⟩
    · exact iff_of_false (by rintro ⟨⟩) (by rintro ⟨⟩)
  | @unanswered transaction state error _ hsubmit herror hledger hjournal =>
    refine ⟨_, ⟨hjournal, rfl, rfl, by rw [hsubmit], ?_⟩, fun receipt => ?_⟩
    · rintro answer ⟨⟩
    · exact iff_of_false (by rintro ⟨⟩) (by rintro ⟨⟩)
  | @answered transaction state limit elapsed answer _ hsubmit hawait hjournal =>
    refine ⟨_, ⟨hjournal, rfl, rfl, by rw [hsubmit], ?_⟩, fun receipt => ?_⟩
    · rintro _ ⟨⟩
      exact ⟨transaction, limit, elapsed, rfl, by rw [hsubmit]; exact hawait⟩
    · cases answer <;> simp [Except.mapError]

/-! ## Deployments -/

/-- **What a deployment does as a whole.**  `r` is its result, and `registry'` what it leaves in
place of the registry. -/
structure Atomic (l : Ledger σ) (timeoutSecs : Nat) (c : Component) (registry : Registry)
    (s : Session σ) (r : Except DeployError Address) (s' : Session σ) (registry' : Registry) :
    Prop where
  /-- It is the deployment that runs are made of. -/
  deploy : deploy l timeoutSecs c registry s = (r.map fun address => (address, registry'), s')
  /-- A deployment that fails leaves the registry alone. -/
  failed : ∀ e, r = .error e → registry' = registry
  /-- With something in the way it fails for that, and submits nothing. -/
  hindered : ∀ e, hindrance? c registry s = some e →
    r = .error e ∧ s'.submissions = s.submissions ∧ s'.ledger = s.ledger
  /-- With nothing in the way it submits its creation once.  No name can fail it then, and a receipt
  that tells of a contract is recorded. -/
  unhindered : hindrance? c registry s = none → ∃ creation x,
    creationOf registry l.deployer c = .ok creation ∧ SubmittedOnce l (.create creation) s s' x ∧
    (∀ name, r ≠ .error (.duplicateName name) ∧ r ≠ .error (.unresolvedDependency name)) ∧
    ∀ address, r = .ok address ↔ ∃ receipt, x.settlement = some (.ok receipt) ∧
      receipt.success = true ∧ receipt.contractAddress = some address
  /-- A deployment that succeeds adds one resource, with the hash and the block of the receipt that
  its submission got. -/
  recorded : ∀ address, r = .ok address → ∃ x receipt,
    s'.submissions = s.submissions ++ [x] ∧ x.settlement = some (.ok receipt) ∧
    registry'.resources =
      registry.resources ++ [⟨c.name, address, receipt.transaction, receipt.block⟩]

theorem contains_eq_false_iff {name : String} :
    registry.contains name = false ↔ name ∉ registry.names := by
  rw [← contains_eq_true_iff, Bool.not_eq_true]

/-- A deployment with something in the way. -/
theorem deploy_of_hindrance {e : DeployError} (h : hindrance? c registry s = some e) :
    ∃ t, deploy l timeoutSecs c registry s = (.error e, t) ∧ t.submissions = s.submissions ∧
      t.ledger = s.ledger := by
  have hresolves := resolves_creationOf registry l.deployer c
  rw [hindrance?] at h
  rw [deploy]
  split at h
  · next hpresent =>
    cases h
    rw [contains_eq_true_iff.2 hpresent]
    exact ⟨s, rfl, rfl, rfl⟩
  · next hfresh =>
    rw [contains_eq_false_iff.2 hfresh]
    split at h
    · next name hmissing =>
      cases h
      rw [hmissing] at hresolves
      exact ⟨s, bind_of_error _ (congrArg (·, s) hresolves), rfl, rfl⟩
    · next hmissing =>
      split at h <;> cases h
      next hfired =>
      rw [hmissing] at hresolves
      obtain ⟨creation, hcreation⟩ := hresolves
      refine ⟨s.look, ?_, rfl, rfl⟩
      exact (ofExcept_bind_of_ok _ hcreation s).trans (bind_of_error _ (transact_of_fired hfired))

/-- With nothing in the way the name is new, all references are there, and the token has not
fired. -/
theorem clear_of_hindrance (h : hindrance? c registry s = none) :
    registry.contains c.name = false ∧ (∀ name ∈ c.references, name ∈ registry.names) ∧
      s.look.token.fired = false := by
  rw [hindrance?] at h
  split at h
  · cases h
  · next hfresh =>
    split at h
    · cases h
    · next hmissing =>
      split at h
      · cases h
      · next hfired =>
        refine ⟨contains_eq_false_iff.2 hfresh, fun name hname => ?_, by simpa using hfired⟩
        simpa using List.find?_eq_none.1 hmissing name hname

/-- A deployment with nothing in the way. -/
theorem submitted_of_deploy {r : Except DeployError (Address × Registry)}
    (hclear : hindrance? c registry s = none)
    (h : deploy l timeoutSecs c registry s = (r, s')) :
    ∃ creation x, ∃ outcome : Except DeployError Receipt,
      creationOf registry l.deployer c = .ok creation ∧
      SubmittedOnce l (.create creation) s s' x ∧
      (∀ receipt, outcome = .ok receipt ↔ x.settlement = some (.ok receipt)) ∧
      r = outcome.bind (created registry c.name) ∧
      ∀ e, r = .error e → aboutName e = false := by
  obtain ⟨hfresh, hreferences, hfired⟩ := clear_of_hindrance hclear
  have hdeployed := deployed_of_deploy h
  have hnameless (e : DeployError) (hr : r = .error e) : aboutName e = false := by
    subst hr
    rcases cause_of_deployed hdeployed with ⟨hpresent, -⟩ | ⟨name, hname, hmissing⟩ | hnameless
    · cases hfresh.symm.trans hpresent
    · exact absurd hmissing (find?_ne_none_iff.2 (hreferences name hname))
    · exact hnameless
  cases hdeployed with
  | duplicate hpresent => cases hfresh.symm.trans hpresent
  | unresolved _ hcreation =>
    obtain ⟨name, hname, hmissing, -⟩ := creationOf_eq_error hcreation
    exact absurd hmissing (find?_ne_none_iff.2 (hreferences name hname))
  | @sent creation outcome _ _ hcreation htransact =>
    obtain ⟨x, hsubmitted, hreceipt⟩ := submitted_of_transact hfired htransact
    exact ⟨creation, x, outcome, hcreation, hsubmitted, hreceipt, rfl, hnameless⟩

/-- A receipt is recorded exactly if it tells of a contract. -/
theorem created_eq_ok_iff {name : String} {receipt : Receipt} {address : Address}
    {extended : Registry} :
    created registry name receipt = .ok (address, extended) ↔
      receipt.success = true ∧ receipt.contractAddress = some address ∧ extended =
        ⟨registry.resources ++ [⟨name, address, receipt.transaction, receipt.block⟩]⟩ := by
  constructor
  · intro h
    obtain ⟨haddress, rfl⟩ := created_eq_ok h
    obtain ⟨hsuccess, hcontract⟩ := createdAddress_eq_ok haddress
    exact ⟨hsuccess, hcontract, rfl⟩
  · rintro ⟨hsuccess, hcontract, rfl⟩
    simp [created, createdAddress, hsuccess, hcontract, Except.map]

/-- A deployment that succeeds had nothing in the way. -/
theorem hindrance_of_deploy {r : Address × Registry}
    (h : deploy l timeoutSecs c registry s = (.ok r, s')) : hindrance? c registry s = none := by
  refine Option.eq_none_iff_forall_ne_some.2 fun e hhindrance => ?_
  obtain ⟨t, hfailed, -⟩ := deploy_of_hindrance hhindrance
  cases h.symm.trans hfailed

/-- A deployment that fails. -/
theorem atomic_of_error {e : DeployError} (h : deploy l timeoutSecs c registry s = (.error e, s')) :
    Atomic l timeoutSecs c registry s (.error e) s' registry where
  deploy := h
  failed _ _ := rfl
  hindered e' hhindrance := by
    obtain ⟨t, hfailed, hjournal, hledger⟩ := deploy_of_hindrance hhindrance
    obtain ⟨he, rfl⟩ := Prod.mk.inj (h.symm.trans hfailed)
    cases he
    exact ⟨rfl, hjournal, hledger⟩
  unhindered hclear := by
    obtain ⟨creation, x, outcome, hcreation, hsubmitted, hreceipt, hbind, hnameless⟩ :=
      submitted_of_deploy hclear h
    have habout := hnameless e rfl
    refine ⟨creation, x, hcreation, hsubmitted, fun name => ⟨?_, ?_⟩, fun address => ?_⟩
    · rintro ⟨⟩
      cases habout
    · rintro ⟨⟩
      cases habout
    · -- a receipt that tells of a contract would have been recorded
      refine iff_of_false (by rintro ⟨⟩) fun ⟨receipt, hsettlement, hsuccess, hcontract⟩ => ?_
      rw [(hreceipt receipt).2 hsettlement] at hbind
      have hcreated : created registry c.name receipt = .ok (_, ⟨_⟩) :=
        created_eq_ok_iff.2 ⟨hsuccess, hcontract, rfl⟩
      cases hbind.trans hcreated
  recorded _ hok := by cases hok

/-- A deployment that succeeds. -/
theorem atomic_of_ok {address : Address} {extended : Registry}
    (h : deploy l timeoutSecs c registry s = (.ok (address, extended), s')) :
    Atomic l timeoutSecs c registry s (.ok address) s' extended := by
  have hclear := hindrance_of_deploy h
  obtain ⟨creation, x, outcome, hcreation, hsubmitted, hreceipt, hbind, -⟩ :=
    submitted_of_deploy hclear h
  obtain ⟨receipt, rfl, hcreated⟩ := bind_eq_ok (x := outcome) hbind.symm
  obtain ⟨hsuccess, hcontract, rfl⟩ := created_eq_ok_iff.1 hcreated
  have hsettlement := (hreceipt receipt).1 rfl
  constructor
  case deploy => exact h
  case failed => rintro _ ⟨⟩
  case hindered =>
    intro e hhindrance
    cases hclear.symm.trans hhindrance
  case unhindered =>
    refine fun _ => ⟨creation, x, hcreation, hsubmitted, fun name => ⟨by rintro ⟨⟩, by rintro ⟨⟩⟩,
      fun address' => ⟨?_, fun ⟨receipt', hsettlement', _, hcontract'⟩ => ?_⟩⟩
    · rintro ⟨⟩
      exact ⟨receipt, hsettlement, hsuccess, hcontract⟩
    · cases hsettlement.symm.trans hsettlement'
      cases hcontract.symm.trans hcontract'
      rfl
  case recorded =>
    rintro _ ⟨⟩
    exact ⟨x, receipt, hsubmitted.journal, hsettlement, rfl⟩

/-- **A deployment submits at most once, and records what came of it or nothing.** -/
theorem atomic_deploy (l : Ledger σ) (timeoutSecs : Nat) (c : Component) (registry : Registry)
    (s : Session σ) :
    Atomic l timeoutSecs c registry s (deployInPlace l timeoutSecs c (s, registry)).1
      (deployInPlace l timeoutSecs c (s, registry)).2.1
      (deployInPlace l timeoutSecs c (s, registry)).2.2 := by
  rw [deployInPlace_eq]
  rcases hdeploy : deploy l timeoutSecs c registry s with ⟨e | ⟨address, extended⟩, t⟩
  · exact atomic_of_error hdeploy
  · exact atomic_of_ok hdeploy

end Rollout.Run
