import Rollout.Proofs.Run.Deployment
import Rollout.Run.Orchestration

/-!
# Proofs/Run/Wiring — what a wiring step can do

Every wiring step but the one that only waits asks for one assignment (`intentOf`).  Taking a step
stays quiet, or is the transaction of its call (`Taken`).
-/

namespace Rollout.Run

variable {σ : Type}

/-- The assignment that a step asks for, with its principals resolved. -/
structure Intent where
  target : Address
  call : Call
  role : AssignmentRole
  path : Option String
  assigned : Address

/-- What a step asks for; a step that only waits asks for nothing. -/
def intentOf (deployer : Address) (naming : Except DeployError Address) (registry : Registry) :
    WiringStep → Option (Except DeployError Intent)
  | .assignSubnode parent label owner => some do
    let naming ← naming
    let owner ← resolvePrincipal deployer registry owner
    pure ⟨naming, .setSubnodeOwner (Naming.node parent) (Naming.labelHash label) owner, .ownership,
      some (Naming.join parent label), owner⟩
  | .awaitPropagation _ _ => none
  | .bindResolver path resolver => some do
    let naming ← naming
    let resolver ← resolvePrincipal deployer registry resolver
    pure ⟨naming, .setResolver (Naming.node path) resolver, .resolver, some path, resolver⟩
  | .bindInterface resolver path interfaceId implementer => some do
    let resolver ← resolvePrincipal deployer registry resolver
    let implementer ← resolvePrincipal deployer registry implementer
    pure ⟨resolver, .setInterface (Naming.node path) interfaceId implementer, .interface, some path,
      implementer⟩
  | .authorizeController resource controller => some do
    let resource ← resolvePrincipal deployer registry resource
    let controller ← resolvePrincipal deployer registry controller
    pure ⟨resource, .addController controller, .controller, none, controller⟩

/-- The assignments that steps ask for, one case for each kind of step. -/
inductive Intends (deployer naming : Address) (registry : Registry) : WiringStep → Intent → Prop where
  | subnode {parent label : String} {owner : Principal} {a : Address}
      (howner : resolvePrincipal deployer registry owner = .ok a) :
      Intends deployer naming registry (.assignSubnode parent label owner)
        ⟨naming, .setSubnodeOwner (Naming.node parent) (Naming.labelHash label) a, .ownership,
          some (Naming.join parent label), a⟩
  | resolver {path : String} {resolver : Principal} {a : Address}
      (hresolver : resolvePrincipal deployer registry resolver = .ok a) :
      Intends deployer naming registry (.bindResolver path resolver)
        ⟨naming, .setResolver (Naming.node path) a, .resolver, some path, a⟩
  | interface {resolver implementer : Principal} {path : String} {interfaceId : InterfaceId}
      {a b : Address} (hresolver : resolvePrincipal deployer registry resolver = .ok a)
      (himplementer : resolvePrincipal deployer registry implementer = .ok b) :
      Intends deployer naming registry (.bindInterface resolver path interfaceId implementer)
        ⟨a, .setInterface (Naming.node path) interfaceId b, .interface, some path, b⟩
  | controller {resource controller : Principal} {a b : Address}
      (hresource : resolvePrincipal deployer registry resource = .ok a)
      (hcontroller : resolvePrincipal deployer registry controller = .ok b) :
      Intends deployer naming registry (.authorizeController resource controller)
        ⟨a, .addController b, .controller, none, b⟩

theorem intends_of_intentOf {deployer naming : Address} {registry : Registry} {step : WiringStep}
    {i : Intent} (h : intentOf deployer (.ok naming) registry step = some (.ok i)) :
    Intends deployer naming registry step i := by
  cases step with
  | awaitPropagation path owner => cases h
  | assignSubnode parent label owner =>
    obtain ⟨_, hnaming, h⟩ := bind_eq_ok (Option.some.inj h)
    obtain ⟨a, ha, h⟩ := bind_eq_ok h
    cases hnaming
    cases h
    exact .subnode ha
  | bindResolver path resolver =>
    obtain ⟨_, hnaming, h⟩ := bind_eq_ok (Option.some.inj h)
    obtain ⟨a, ha, h⟩ := bind_eq_ok h
    cases hnaming
    cases h
    exact .resolver ha
  | bindInterface resolver path interfaceId implementer =>
    obtain ⟨a, ha, h⟩ := bind_eq_ok (Option.some.inj h)
    obtain ⟨b, hb, h⟩ := bind_eq_ok h
    cases h
    exact .interface ha hb
  | authorizeController resource controller =>
    obtain ⟨a, ha, h⟩ := bind_eq_ok (Option.some.inj h)
    obtain ⟨b, hb, h⟩ := bind_eq_ok h
    cases h
    exact .controller ha hb

/-- Whether a step assigns something; the others only wait. -/
def assigns : WiringStep → Bool
  | .awaitPropagation _ _ => false
  | _ => true

theorem assigns_of_intent {deployer : Address} {naming : Except DeployError Address}
    {registry : Registry} {step : WiringStep} :
    assigns step = (intentOf deployer naming registry step).isSome := by
  cases step <;> rfl

namespace Intent

def request (i : Intent) : Request :=
  .call i.target i.call

/-- The record of the assignment, from the receipt of its call. -/
def record (i : Intent) (receipt : Receipt) : Except DeployError Assignment :=
  recordOf i.target i.call i.role i.path i.assigned receipt

end Intent

/-- **What a wiring step can do.**  It stays quiet, as it asks for nothing or fails before its call
(at a principal that is not deployed, or at a read or a wait), or it makes the call that it asks for
and records what the receipt tells. -/
inductive Taken (l : Ledger σ) (d : Desk) (registry : Registry) (step : WiringStep)
    (s : Session σ) : Except DeployError (Option Assignment) → Session σ → Prop where
  | waited {s' : Session σ} (hquiet : Quiet l s s')
      (hintent : intentOf l.deployer (.ok d.registry) registry step = none) :
      Taken l d registry step s (.ok none) s'
  | stopped {e : DeployError} {s' : Session σ} (hquiet : Quiet l s s')
      (hpending : e.pending = none)
      (hcause : (∃ p ∈ step.principals, resolvePrincipal l.deployer registry p = .error e) ∨
        aboutName e = false) : Taken l d registry step s (.error e) s'
  | called {i : Intent} {t s' : Session σ} {outcome : Except DeployError Receipt}
      (hintent : intentOf l.deployer (.ok d.registry) registry step = some (.ok i))
      (hquiet : Quiet l s t)
      (htransact : transact l d.timeoutSecs (.call i.call) i.request
        (callError i.call.name i.target) t = (outcome, s')) :
      Taken l d registry step s (outcome.bind fun receipt => (i.record receipt).map some) s'

theorem pending_callError (name : String) (target : Address) (error : LedgerError) :
    (callError name target error).pending = none := by
  cases error <;> rfl

theorem recordOf_eq_ok {target assigned : Address} {call : Call} {role : AssignmentRole}
    {path : Option String} {receipt : Receipt} {record : Assignment}
    (h : recordOf target call role path assigned receipt = .ok record) :
    receipt.success = true ∧ record = ⟨role, path, affectedNode call, target, assigned,
      receipt.transaction, receipt.block⟩ := by
  rw [recordOf] at h
  split at h <;> cases h
  next hsuccess => exact ⟨hsuccess, rfl⟩

theorem record_eq_error {i : Intent} {receipt : Receipt} {e : DeployError}
    (h : (i.record receipt).map some = .error e) :
    ∃ fault, e = .assignmentRejected i.call.name i.target fault := by
  have hrecord := map_eq_error h
  rw [Intent.record, recordOf] at hrecord
  split at hrecord <;> cases hrecord
  exact ⟨_, rfl⟩

theorem pending_record {i : Intent} {receipt : Receipt} {e : DeployError}
    (h : (i.record receipt).map some = .error e) : e.pending = none := by
  obtain ⟨fault, rfl⟩ := record_eq_error h
  rfl

section Take

variable {l : Ledger σ} {d : Desk} {registry : Registry} {step : WiringStep} {s s' : Session σ}
  {r : Except DeployError (Option Assignment)}

theorem ensureAuthority_harmless {name : String} {node : Node} {r : Except DeployError Unit}
    (h : ensureAuthority l d name node s = (r, s')) : Harmless l s r s' := by
  have hread : Quiet l s (s.owner l d.registry node).2 := .owner ..
  rw [ensureAuthority] at h
  split at h
  · dsimp only at h
    split at h
    · next owner t hanswer =>
      rw [hanswer] at hread
      split at h <;> cases h
      · exact .ok hread
      · exact .failed hread rfl rfl
    · next error t hanswer =>
      rw [hanswer] at hread
      cases h
      exact .failed hread rfl rfl
  · cases h
    exact .ok (.refl s)

theorem pending_resolvePrincipal {deployer : Address} {p : Principal} {e : DeployError}
    (h : resolvePrincipal deployer registry p = .error e) : e.pending = none := by
  cases p with
  | component name =>
    simp only [resolvePrincipal, Registry.address] at h
    split at h <;> cases h
    rfl
  | _ => cases h

/-- A step that has to look up a principal fails quietly if it cannot. -/
theorem taken_of_principal {p : Principal} {f : Address → Action σ (Option Assignment)}
    (hp : p ∈ step.principals)
    (h : (ofExcept (resolvePrincipal l.deployer registry p) >>= f) s = (r, s'))
    (hf : ∀ a, resolvePrincipal l.deployer registry p = .ok a → f a s = (r, s') →
      Taken l d registry step s r s') : Taken l d registry step s r s' := by
  rcases ofExcept_bind_cases h with ⟨a, ha, h⟩ | ⟨e, he, rfl, rfl⟩
  · exact hf a ha h
  · exact .stopped (.refl s') (pending_resolvePrincipal he) (.inl ⟨p, hp, he⟩)

/-- An assignment, its authority checked or not, makes its call unless it fails before. -/
theorem taken_of_execute {target assigned : Address} {call : Call} {role : AssignmentRole}
    {path : Option String} {k : Action σ Unit}
    (hintent : intentOf l.deployer (.ok d.registry) registry step =
      some (.ok ⟨target, call, role, path, assigned⟩))
    (hcheck : ∀ {s s' r}, k s = (r, s') → Harmless l s r s')
    (h : (some <$> (k >>= fun _ => execute l d target call role path assigned)) s = (r, s')) :
    Taken l d registry step s r s' := by
  obtain ⟨made, hmade, rfl⟩ := map_cases h
  rcases bind_cases hmade with ⟨_, t, hchecked, hexecute⟩ | ⟨e, hchecked, rfl⟩
  · cases hcheck hchecked with
    | ok hquiet =>
      rcases bind_cases hexecute with ⟨receipt, u, htransact, hrecord⟩ | ⟨e, htransact, rfl⟩
      · cases hrecord
        exact .called hintent hquiet htransact
      · exact .called hintent hquiet htransact
  · cases hcheck hchecked with
    | failed hquiet hpending hname => exact .stopped hquiet hpending (.inr hname)

theorem taken_of_takeStep {policy : PropagationPolicy}
    (h : takeStep l d policy registry step s = (r, s')) : Taken l d registry step s r s' := by
  cases step with
  | assignSubnode parent label owner =>
    refine taken_of_principal (by simp [WiringStep.principals]) h fun a ha h => ?_
    exact taken_of_execute (by rw [intentOf, ha]; rfl) ensureAuthority_harmless h
  | awaitPropagation path owner =>
    refine taken_of_principal (by simp [WiringStep.principals]) h fun a ha h => ?_
    rcases bind_cases h with ⟨_, t, hawait, h⟩ | ⟨e, hawait, rfl⟩
    · cases h
      cases awaitPropagation_harmless hawait with
      | ok hquiet => exact .waited hquiet rfl
    · cases awaitPropagation_harmless hawait with
      | failed hquiet hpending hname => exact .stopped hquiet hpending (.inr hname)
  | bindResolver path resolver =>
    refine taken_of_principal (by simp [WiringStep.principals]) h fun a ha h => ?_
    exact taken_of_execute (by rw [intentOf, ha]; rfl) ensureAuthority_harmless h
  | bindInterface resolver path interfaceId implementer =>
    refine taken_of_principal (by simp [WiringStep.principals]) h fun a ha h => ?_
    refine taken_of_principal (by simp [WiringStep.principals]) h fun b hb h => ?_
    exact taken_of_execute (by rw [intentOf, ha, hb]; rfl) ensureAuthority_harmless h
  | authorizeController resource controller =>
    refine taken_of_principal (by simp [WiringStep.principals]) h fun a ha h => ?_
    refine taken_of_principal (by simp [WiringStep.principals]) h fun b hb h => ?_
    refine taken_of_execute (k := pure ()) (by rw [intentOf, ha, hb]; rfl) (fun hpure => ?_) h
    cases hpure
    exact .ok (.refl _)

end Take

end Rollout.Run
