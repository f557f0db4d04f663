import Rollout.Proofs.Data.Keccak
import Rollout.Proofs.Run.Authority
import Rollout.Proofs.Run.Cut
import Rollout.Proofs.Run.Position
import Rollout.Proofs.Run.Rehearsal

/-!
# Proofs/Run/Precheck — the check beforehand saves one submission and nothing else

With the check, a run asks the naming registry who owns a node before it makes a call about it.
Without it, the ledger decides on its own, for an interface by the registry that the resolver was
created with.  Both say the same: of all registries only the naming registry has owners besides those
of roots, and the root of the naming registry stays with the account that created it (`Ruled.owns`).
So a run with the check goes on exactly as one without it, until a call that the ledger would revert;
there both fail, and only one of them has submitted the call (`precheck_run`).
-/

namespace Rollout

/-- What went wrong, without the particulars. -/
inductive ErrorKind where
  | duplicateName
  | unresolvedDependency
  | unknownDependency
  | dependencyCycle
  | invalidPlan
  | deploymentFailed
  | confirmationTimeout
  | assignmentRejected
  | cancelled
  | artifact
  | ledger
  deriving DecidableEq

def DeployError.kind : DeployError → ErrorKind
  | .duplicateName _ => .duplicateName
  | .unresolvedDependency _ => .unresolvedDependency
  | .unknownDependency _ _ => .unknownDependency
  | .dependencyCycle _ => .dependencyCycle
  | .invalidPlan _ => .invalidPlan
  | .deploymentFailed _ _ => .deploymentFailed
  | .confirmationTimeout _ _ _ _ => .confirmationTimeout
  | .assignmentRejected _ _ _ => .assignmentRejected
  | .cancelled _ _ => .cancelled
  | .ledger (.artifact _ _) => .artifact
  | .ledger (.transport _) => .ledger

namespace Run

open Simulated (World State Contract Candid)

variable {ε ε' α β : Type}

/-! ## Ledgers without delays -/

section Candid

variable {deployer : Address} {w w' : World} {timeoutSecs : Nat} {c : Component}
  {registry : Registry} {d : Desk} {step : WiringStep} {s s' : Session World}

/-- Reads of what is there leave no trace. -/
theorem eq_of_reads (hcandid : Candid w) (h : Reads (Simulated.ledger deployer) w w') : w' = w := by
  induction h with
  | refl => rfl
  | tail _ hread ih =>
    obtain ⟨naming, node, rfl⟩ := hread
    subst ih
    have hread := Simulated.owner_of_read hcandid.readable (hcandid.read naming node)
    exact congrArg OwnerRead.state hread

/-- A wiring step leaves the ledger alone, or submits its call. -/
theorem ledger_of_taken {r : Except DeployError (Option Assignment)} (hcandid : Candid s.ledger)
    (h : Taken (Simulated.ledger deployer) d registry step s r s') :
    s'.ledger = s.ledger ∨ ∃ target call,
      s'.ledger = (Simulated.submit deployer (.call target call) s.ledger).2 := by
  cases h with
  | waited hquiet hintent => exact .inl (eq_of_reads hcandid hquiet.reads)
  | stopped hquiet hpending hcause => exact .inl (eq_of_reads hcandid hquiet.reads)
  | @called i t _ _ hintent hquiet htransact =>
    have hsame : t.ledger = s.ledger := eq_of_reads hcandid hquiet.reads
    have hafter := ledger_of_transact htransact
    rw [hsame] at hafter
    exact hafter.imp_right fun hsubmitted => ⟨i.target, i.call, hsubmitted⟩

/-- While a run goes on: nothing makes the token fire, reads show what is there, and all contracts
are those of the account. -/
structure Calm (deployer : Address) (t : Session World) : Prop where
  idle : Idle t
  candid : Candid t.ledger
  ours : ∀ address contract, t.ledger.state.contracts.get? address = some contract →
    contract.creator = deployer

theorem Calm.deployed {address : Address} {extended : Registry} (h : Calm deployer s)
    (hdeployed : Deployed (Simulated.ledger deployer) timeoutSecs c registry s
      (.ok (address, extended)) s') : Calm deployer s' := by
  obtain ⟨_, receipt, -, htransact, -⟩ := transact_of_deployed hdeployed
  obtain ⟨creation, resource, -, -, -, -, -, hholdings⟩ := produced_of_deployed hdeployed
  refine ⟨(blind_transact ..).idle h.idle htransact, ?_, fun address contract hcontract => ?_⟩
  · rcases ledger_of_transact htransact with hsame | hsubmitted
    · exact hsame ▸ h.candid
    · exact hsubmitted ▸ h.candid.submit ..
  · have hcontracts : s'.ledger.state.contracts =
        (s.ledger.state.holdings.produce deployer creation).contracts :=
      (congrArg State.contracts hholdings :)
    rw [hcontracts] at hcontract
    simp only [State.produce, Assoc.get?_insert] at hcontract
    split at hcontract
    · obtain rfl := Option.some.inj hcontract
      rfl
    · exact h.ours address contract hcontract

theorem Calm.called (h : Calm deployer s) (hidle : Idle s')
    (hledger : s'.ledger = s.ledger ∨ ∃ target call,
      s'.ledger = (Simulated.submit deployer (.call target call) s.ledger).2) :
    Calm deployer s' ∧ s'.ledger.faults = s.ledger.faults ∧
      ∀ address, s'.ledger.state.contracts.get? address =
        s.ledger.state.contracts.get? address := by
  rcases hledger with hsame | ⟨target, call, hsubmitted⟩
  · rw [hsame]
    exact ⟨⟨hidle, hsame ▸ h.candid, hsame ▸ h.ours⟩, rfl, fun _ => rfl⟩
  · have hcontracts : ∀ address, s'.ledger.state.contracts.get? address =
        s.ledger.state.contracts.get? address := by
      intro address
      rw [hsubmitted]
      exact Simulated.get?_contracts_submit fun c hc => nomatch hc
    refine ⟨⟨hidle, hsubmitted ▸ h.candid.submit .., fun address contract hcontract => ?_⟩, ?_,
      hcontracts⟩
    · exact h.ours address contract ((hcontracts address).symm.trans hcontract)
    · rw [hsubmitted, Simulated.faults_submit]

end Candid

/-! ## Who owns what -/

/-- No record gives the root to anybody. -/
def Rooted (assignments : List Assignment) : Prop :=
  ∀ a ∈ assignments, ¬ Gives Naming.root a

/-- While steps are taken on a ledger without delays, the naming registry is a contract of the
account, and the records tell who owns what. -/
structure Ruled (deployer : Address) (d : Desk) (taken : List WiringStep) (p : Progress)
    (t : Session World) : Prop where
  calm : Calm deployer t
  answered : t.ledger.faults.stalled = false
  naming : ∃ contract, t.ledger.state.contracts.get? d.registry = some contract
  mastered : Mastered deployer d taken p t

section Ruled

variable {deployer : Address} {d : Desk} {taken : List WiringStep} {p : Progress}
  {t t' : Session World} {step : WiringStep}

/-- **Whoever owns a node in any registry owns it in the naming registry**, as far as the account
of the run is concerned. -/
theorem Ruled.owns (h : Ruled deployer d taken p t) (haccount : deployer ≠ .zero 20)
    (hrooted : Rooted p.assignments) {registry : Address} {node : Node}
    (howner : t.ledger.state.holdings.ownerOf registry node = deployer) :
    t.ledger.state.holdings.ownerOf d.registry node = deployer := by
  by_cases hroot : node = Naming.root
  · subst hroot
    obtain ⟨contract, hcontract⟩ := h.naming
    have hunassigned : t.ledger.state.holdings.owners.get? (d.registry, Naming.root) = none := by
      rw [Option.eq_none_iff_forall_not_mem]
      rintro owner hassigned
      obtain ⟨-, before, record, after, hrecords, hgives, -, -⟩ :=
        h.mastered.owners _ _ _ hassigned
      have hmem : record ∈ p.assignments := by simp [hrecords]
      exact hrooted record hmem hgives
    rw [Simulated.ownerOf_root hunassigned hcontract, h.calm.ours _ _ hcontract]
  · have hassigned := Simulated.get?_owners_of_ownerOf howner hroot haccount
    obtain ⟨rfl, -⟩ := h.mastered.owners registry node deployer hassigned
    exact howner

theorem Ruled.next {made : Option Assignment} (h : Ruled deployer d taken p t)
    (haccount : deployer ≠ .zero 20) (hidle : Idle t')
    (htaken : Taken (Simulated.ledger deployer) d p.registry step t (.ok made) t')
    (completed : Option String) :
    Ruled deployer d (taken ++ [step]) ⟨p.registry, p.assignments ++ made.toList, completed⟩ t' := by
  obtain ⟨hcalm, hfaults, hcontracts⟩ :=
    h.calm.called hidle (ledger_of_taken h.calm.candid htaken)
  obtain ⟨contract, hcontract⟩ := h.naming
  exact ⟨hcalm, by rw [hfaults, h.answered], ⟨contract, by rw [hcontracts, hcontract]⟩,
    h.mastered.next haccount htaken completed⟩

end Ruled

/-! ## One step with the check and without it -/

/-- How the two runs go on: the same way, in sessions that differ in the number of reads only; or
both stop, and without the check there was one submission more. -/
inductive Agree (alike : ε → ε → Prop) :
    Except ε α × Session World → Except ε α × Session World → Prop where
  | same {r : Except ε α} {t t' : Session World} (hidle : Idle t) (htwin : Twin t t') :
      Agree alike (r, t) (r, t')
  | refused {e e' : ε} {t t' : Session World} (halike : alike e e')
      (hholdings : t'.ledger.state.holdings = t.ledger.state.holdings)
      (hsent : t.submissions.length = t'.submissions.length + 1) :
      Agree alike (.error e, t) (.error e', t')

theorem Blind.agree {x : Action World α} {alike : DeployError → DeployError → Prop}
    {t t' : Session World} (h : Blind x) (hidle : Idle t) (htwin : Twin t t') :
    Agree alike (x t) (x t') := by
  obtain ⟨hidle, hresult, htwin⟩ := h hidle htwin
  rcases hx : x t with ⟨r, u⟩
  rcases hx' : x t' with ⟨r', u'⟩
  rw [hx, hx'] at hresult htwin
  rw [hx] at hidle
  obtain rfl : r' = r := hresult
  exact .same hidle htwin

theorem Agree.map {x y : Action World α} {alike : DeployError → DeployError → Prop}
    {t t' : Session World} (h : Agree alike (x t) (y t')) (f : α → β) :
    Agree alike ((f <$> x) t) ((f <$> y) t') := by
  rw [map_apply, map_apply]
  generalize x t = a at h
  generalize y t' = b at h
  cases h with
  | same hidle htwin => exact .same hidle htwin
  | refused halike hholdings hsent => exact .refused halike hholdings hsent

/-- Whatever the two runs look up, they look up in the same registry. -/
theorem agree_of_principal {alike : DeployError → DeployError → Prop} {t t' : Session World}
    {result : Except DeployError β} {f f' : β → Action World α} (hidle : Idle t) (htwin : Twin t t')
    (h : ∀ b, result = .ok b → Agree alike (f b t) (f' b t')) :
    Agree alike ((ofExcept result >>= f) t) ((ofExcept result >>= f') t') := by
  cases result with
  | error e => exact .same hidle htwin
  | ok b => exact h b rfl

/-- The desk of a run with the check, or without it. -/
def Desk.checking (d : Desk) (precheck : Bool) : Desk :=
  { d with precheck }

theorem blind_execute {l : Ledger World} (d : Desk) (target : Address) (call : Call)
    (role : AssignmentRole) (path : Option String) (assigned : Address) :
    Blind (execute l d target call role path assigned) :=
  (blind_transact ..).bind fun receipt =>
    blind_ofExcept (recordOf target call role path assigned receipt)

section Step

variable {deployer : Address} {d : Desk} {taken : List WiringStep} {p : Progress}
  {t t' : Session World}

/-- **A call that the ledger carries out passes the check**, and one that does not is reverted. -/
theorem agree_of_execute {target assigned : Address} {call : Call} {role : AssignmentRole}
    {path : Option String} {name : String} {node : Node}
    (h : Ruled deployer (d.checking false) taken p t) (htwin : Twin t t')
    (hgranted : ∀ changed, t.ledger.state.holdings.execute deployer target call = .ok changed →
      t.ledger.state.ownerOf d.registry node = deployer) :
    Agree (fun e e' => e'.kind = e.kind)
      ((ensureAuthority (Simulated.ledger deployer) (d.checking false) name node >>= fun _ =>
        execute (Simulated.ledger deployer) (d.checking false) target call role path assigned) t)
      ((ensureAuthority (Simulated.ledger deployer) (d.checking true) name node >>= fun _ =>
        execute (Simulated.ledger deployer) (d.checking true) target call role path assigned)
        t') := by
  have hledger : t'.ledger = t.ledger := htwin.ledger
  have hread : t'.owner (Simulated.ledger deployer) d.registry node =
      (.ok (t.ledger.state.ownerOf d.registry node), { t' with reads := t'.reads + 1 }) := by
    have hcandid : Candid t'.ledger := hledger ▸ h.calm.candid
    rw [← hledger]
    exact owner_of_read deployer (htwin.idle h.calm.idle) hcandid.readable
      (hcandid.read d.registry node)
  have hchecked := ensureAuthority_of_owner (d := d.checking true) rfl hread name
  rw [bind_of_ok _ (ensureAuthority_of_unchecked rfl name)]
  by_cases howner : t.ledger.state.ownerOf d.registry node = deployer
  · have hpassed := hchecked.trans (congrArg (·, _) (if_pos howner))
    rw [bind_of_ok _ hpassed]
    exact (blind_execute d target call role path assigned).agree h.calm.idle htwin.read
  · have hstopped := hchecked.trans (congrArg (·, _) (if_neg howner))
    rw [bind_of_error _ hstopped]
    cases hexecute : t.ledger.state.holdings.execute deployer target call with
    | ok changed => exact absurd (hgranted changed hexecute) howner
    | error revert =>
      obtain ⟨reason, u, hrun, hholdings, hsent⟩ :=
        execute_of_error d role path assigned h.calm.idle h.answered hexecute
      have hrun' : execute (Simulated.ledger deployer) (d.checking false) target call role path
          assigned t = _ := hrun
      rw [hrun']
      refine .refused rfl ?_ ?_
      · rw [hholdings, ← hledger]
      · rw [hsent, ← htwin.submissions]

/-- **One wiring step, with the check and without it.** -/
theorem agree_of_takeStep (h : Ruled deployer (d.checking false) taken p t)
    (haccount : deployer ≠ .zero 20) (hrooted : Rooted p.assignments) (htwin : Twin t t')
    (policy : PropagationPolicy) (step : WiringStep) :
    Agree (fun e e' => e'.kind = e.kind)
      (takeStep (Simulated.ledger deployer) (d.checking false) policy p.registry step t)
      (takeStep (Simulated.ledger deployer) (d.checking true) policy p.registry step t') := by
  have hidle : Idle t := h.calm.idle
  cases step with
  | assignSubnode parent label owner =>
    refine agree_of_principal hidle htwin fun a _ => (agree_of_execute h htwin ?_).map some
    intro changed hexecute
    cases Simulated.granted_of_execute hexecute with
    | subnode hcontract howner => exact h.owns haccount hrooted howner
  | awaitPropagation path owner =>
    refine agree_of_principal hidle htwin fun a _ => Blind.agree ?_ hidle htwin
    exact (blind_awaitPropagation policy _).bind fun _ => blind_ofExcept (.ok none)
  | bindResolver path resolver =>
    refine agree_of_principal hidle htwin fun a _ => (agree_of_execute h htwin ?_).map some
    intro changed hexecute
    cases Simulated.granted_of_execute hexecute with
    | resolver hcontract howner => exact h.owns haccount hrooted howner
  | bindInterface resolver path interfaceId implementer =>
    refine agree_of_principal hidle htwin fun a _ => ?_
    refine agree_of_principal hidle htwin fun b _ => (agree_of_execute h htwin ?_).map some
    intro changed hexecute
    cases Simulated.granted_of_execute hexecute with
    | interface hcontract hregistry howner => exact h.owns haccount hrooted howner
  | authorizeController resource controller =>
    refine agree_of_principal hidle htwin fun a _ => ?_
    refine agree_of_principal hidle htwin fun b _ => ?_
    exact ((blind_execute d a _ _ _ b).map some).agree hidle htwin

end Step

/-! ## The wiring with the check and without it -/

/-- Two failures of the same kind at the same place, with the same to show for. -/
structure SameStop (f f' : Failure) : Prop where
  kind : f'.error.kind = f.error.kind
  step : f'.failedStep = f.failedStep
  last : f'.lastCompleted = f.lastCompleted
  report : f'.report = f.report

section Wiring

variable {deployer : Address} {d : Desk} {taken steps : List WiringStep} {p : Progress}
  {s s' t t' : Session World} {policy : PropagationPolicy}

theorem agree_of_wireNext (h : Ruled deployer (d.checking false) taken p t)
    (haccount : deployer ≠ .zero 20) (hrooted : Rooted p.assignments) (htwin : Twin t t')
    (policy : PropagationPolicy) (index : Nat) (step : WiringStep) :
    Agree SameStop
      (wireNext (Simulated.ledger deployer) (d.checking false) policy index step p t)
      (wireNext (Simulated.ledger deployer) (d.checking true) policy index step p t') := by
  have hstep := agree_of_takeStep h haccount hrooted htwin policy step
  rw [wireNext, wireNext]
  generalize takeStep _ (d.checking false) policy p.registry step t = a at hstep
  generalize takeStep _ (d.checking true) policy p.registry step t' = b at hstep
  cases hstep with
  | @same r u u' hidle htwin =>
    cases r with
    | ok made => exact .same hidle htwin
    | error e => exact .same hidle htwin
  | refused hkind hholdings hsent => exact .refused ⟨hkind, rfl, rfl, rfl⟩ hholdings hsent

theorem Rooted.of_append {made : List Assignment} (h : Rooted (p.assignments ++ made)) :
    Rooted p.assignments :=
  fun a ha => h a (List.mem_append_left made ha)

/-- The run with the check has come as far as the one without it, unless some record gives the root
away: both were at `p` before the steps `taken`, the one with the check in `s'`. -/
def Abreast (deployer : Address) (d : Desk) (policy : PropagationPolicy) (p : Progress)
    (s' : Session World) (taken : List WiringStep) (q : Progress) (t : Session World) : Prop :=
  Rooted q.assignments → Ruled deployer (d.checking false) taken q t ∧ ∃ t', Twin t t' ∧
    inOrder (wireNext (Simulated.ledger deployer) (d.checking true) policy) 0 taken p s' =
      (.ok q, t')

theorem Abreast.next {q q' : Progress} {u : Session World} {step : WiringStep}
    (h : Abreast deployer d policy p s' taken q t) (haccount : deployer ≠ .zero 20)
    (hnext : wireNext (Simulated.ledger deployer) (d.checking false) policy taken.length step q t =
      (.ok q', u)) : Abreast deployer d policy p s' (taken ++ [step]) q' u := by
  intro hrooted
  rcases wireNext_cases hnext with ⟨made, hq, htaken⟩ | ⟨e, hq, -⟩ <;> cases hq
  have hrooted' : Rooted q.assignments := hrooted.of_append
  obtain ⟨hruled, t', htwin, hreached⟩ := h hrooted'
  have hagree := agree_of_wireNext hruled haccount hrooted' htwin policy taken.length step
  rw [hnext] at hagree
  generalize hchecked : wireNext _ (d.checking true) policy taken.length step q t' = b at hagree
  cases hagree with
  | @same _ _ u' hidle htwin' =>
    exact ⟨hruled.next haccount hidle htaken _, u', htwin',
      (inOrder_concat hreached step).trans hchecked⟩

/-- **All wiring steps, with the check and without it.** -/
theorem agree_of_wiring (h : Ruled deployer (d.checking false) [] p s)
    (haccount : deployer ≠ .zero 20) (htwin : Twin s s') (policy : PropagationPolicy)
    (steps : List WiringStep)
    (hrooted : Rooted (reportOf ((inOrder (wireNext (Simulated.ledger deployer) (d.checking false)
      policy) 0 steps p s).1.map Progress.report)).assignments) :
    Agree SameStop
      (inOrder (wireNext (Simulated.ledger deployer) (d.checking false) policy) 0 steps p s)
      (inOrder (wireNext (Simulated.ledger deployer) (d.checking true) policy) 0 steps p s') := by
  have hstart : Abreast deployer d policy p s' [] p s := fun _ => ⟨h, s', htwin, rfl⟩
  rcases inOrder_cases (wireNext (Simulated.ledger deployer) (d.checking false) policy) hstart
      (fun _ h hnext => h.next haccount hnext) with
    ⟨q, t, hrun, hq⟩ | ⟨earlier, step, later, q, t, f, u, hsplit, hq, hfail, hrun⟩
  · rw [hrun] at hrooted ⊢
    obtain ⟨hruled, t', htwin', hreached⟩ := hq hrooted
    rw [hreached]
    exact .same hruled.calm.idle htwin'
  · rw [hrun] at hrooted ⊢
    rcases wireNext_cases hfail with ⟨_, hf, -⟩ | ⟨e, hf, -⟩ <;> cases hf
    have hrooted' : Rooted q.assignments := hrooted
    obtain ⟨hruled, t', htwin', hreached⟩ := hq hrooted'
    have hagree := agree_of_wireNext hruled haccount hrooted' htwin' policy earlier.length step
    rw [hfail] at hagree
    generalize hchecked : wireNext _ (d.checking true) policy earlier.length step q t' = b at hagree
    have hpart : earlier ++ [step] <+: steps := ⟨later, by simp [hsplit]⟩
    have hstopped := (inOrder_concat hreached step).trans hchecked
    cases hagree with
    | same hidle htwin' =>
      rw [inOrder_of_part hpart hstopped]
      exact .same hidle htwin'
    | refused hstop hholdings hsent =>
      rw [inOrder_of_part hpart hstopped]
      exact .refused hstop hholdings hsent

end Wiring

/-! ## Whole runs -/

/-- While components are deployed on a ledger without delays, every resource behind those of the
start is a contract, and once there is one, confirmations come. -/
structure Founded (deployer : Address) (plan : Plan) (start : Registry) (s : Session World)
    (earlier : List Component) (p : Progress) (t : Session World) : Prop where
  calm : Calm deployer t
  unowned : Unowned p t
  standing : AfterComponents (Simulated.ledger deployer) plan start s earlier p t
  placed : ∀ r ∈ p.registry.resources, r ∈ start.resources ∨
    ∃ contract, t.ledger.state.contracts.get? r.address = some contract
  answered : earlier ≠ [] → t.ledger.faults.stalled = false

section Founded

variable {deployer : Address} {plan : Plan} {settings : Settings} {start : Registry}
  {s t t' : Session World} {earlier : List Component} {c : Component} {p : Progress}

theorem Founded.next {address : Address} {extended : Registry} {timeoutSecs : Nat}
    (h : Founded deployer plan start s earlier p t)
    (hdeployed : Deployed (Simulated.ledger deployer) timeoutSecs c p.registry t
      (.ok (address, extended)) t') :
    Founded deployer plan start s (earlier ++ [c])
      ⟨extended, p.assignments, some s!"deployed {c.name}"⟩ t' := by
  obtain ⟨creation, resource, -, -, haddress, hresources, hfaults, hholdings⟩ :=
    produced_of_deployed hdeployed
  obtain ⟨_, receipt, -, htransact, -⟩ := transact_of_deployed hdeployed
  have hcontracts : t'.ledger.state.contracts =
      (t.ledger.state.holdings.produce deployer creation).contracts :=
    (congrArg State.contracts hholdings :)
  refine ⟨h.calm.deployed hdeployed, h.unowned.next hdeployed _, h.standing.next hdeployed, ?_, ?_⟩
  · intro r hr
    rw [hcontracts]
    simp only [State.produce, Assoc.get?_insert]
    rw [show (Progress.registry ⟨extended, _, _⟩) = extended from rfl, hresources] at hr
    rcases List.mem_append.1 hr with hr | hr
    · refine (h.placed r hr).imp_right fun hplaced => ?_
      split
      · exact ⟨_, rfl⟩
      · exact hplaced
    · rw [List.mem_singleton.1 hr, haddress]
      exact .inr ⟨_, if_pos rfl⟩
  · intro _
    rw [hfaults]
    exact stalled_of_transact htransact

/-- The desk stands on a contract of the account. -/
theorem Founded.desk {name : String} {naming : Address}
    (h : Founded deployer plan start s plan.components p t) (hchecked : plan.Checked)
    (hregistry : plan.registry = some name) (haddress : p.registry.address name = .ok naming)
    (d : Desk) (hd : d.registry = naming) : Ruled deployer d [] p t := by
  have hname : name ∈ plan.components.map Component.name := hchecked.registry name hregistry
  obtain ⟨c, hc, hsame⟩ := List.mem_map.1 hname
  have hanswered := h.answered (List.ne_nil_of_mem hc)
  rw [Registry.address] at haddress
  split at haddress
  · next found hfound =>
    have hmem : found ∈ p.registry.resources := List.mem_of_find?_eq_some hfound
    have hfoundname : found.name = name := by simpa using List.find?_some hfound
    refine ⟨h.calm, hanswered, ?_, h.unowned.desk d⟩
    rw [hd, ← Except.ok.inj haddress]
    refine (h.placed found hmem).resolve_left fun hstart => ?_
    have htaken : start.contains c.name = true := by
      rw [contains_eq_true_iff, hsame, ← hfoundname]
      exact List.mem_map_of_mem hstart
    exact Bool.false_ne_true ((h.standing.fresh c hc).symm.trans htaken)
  · cases haddress

end Founded

/-- Both runs complete with the same report, or both stop at the same place. -/
inductive SameOutcome : Except Failure Report → Except Failure Report → Prop where
  | complete (report : Report) : SameOutcome (.ok report) (.ok report)
  | failed {f f' : Failure} (hstop : SameStop f f') : SameOutcome (.error f) (.error f')

/-- **What a run achieves without the check, it achieves with it**: the outcomes are the same, and so
is all that lasts on the ledger; the run with the check submits as much, or one call less. -/
structure Matches (unchecked checked : Except Failure Report × Session World) : Prop where
  outcome : SameOutcome unchecked.1 checked.1
  holdings : checked.2.ledger.state.holdings = unchecked.2.ledger.state.holdings
  submissions : unchecked.2.submissions.length = checked.2.submissions.length ∨
    unchecked.2.submissions.length = checked.2.submissions.length + 1

theorem Matches.refl (r : Except Failure Report) (t : Session World) : Matches (r, t) (r, t) where
  outcome := by
    cases r with
    | ok report => exact .complete report
    | error f => exact .failed ⟨rfl, rfl, rfl, rfl⟩
  holdings := rfl
  submissions := .inl rfl

theorem matches_of_agree {x y : Except Failure Progress × Session World} (h : Agree SameStop x y) :
    Matches (x.1.map Progress.report, x.2) (y.1.map Progress.report, y.2) := by
  cases h with
  | @same r t t' hidle htwin =>
    have hledger : t'.ledger = t.ledger := htwin.ledger
    have houtcome := (Matches.refl (r.map Progress.report) t).outcome
    exact ⟨houtcome, by rw [hledger], .inl (by rw [htwin.submissions])⟩
  | refused hstop hholdings hsent => exact ⟨.failed hstop, hholdings, .inr hsent⟩

theorem agree_of_wire {p : Progress} {t : Session World} {deployer : Address} {plan : Plan}
    {settings : Settings} {start : Registry} {s : Session World} (hchecked : plan.Checked)
    (haccount : deployer ≠ .zero 20) (hfounded : Founded deployer plan start s plan.components p t)
    (hrooted : Rooted (reportOf ((wire (Simulated.ledger deployer) plan
      { settings with precheck := false } p t).1.map Progress.report)).assignments) :
    Agree SameStop
      (wire (Simulated.ledger deployer) plan { settings with precheck := false } p t)
      (wire (Simulated.ledger deployer) plan { settings with precheck := true } p t) := by
  have hidle : Idle t := hfounded.calm.idle
  cases hregistry : plan.registry with
  | none =>
    simp only [wire, hregistry]
    exact .same hidle (.refl t)
  | some name =>
    cases haddress : p.registry.address name with
    | error e =>
      simp only [wire, hregistry, haddress]
      exact .same hidle (.refl t)
    | ok naming =>
      have hruled := hfounded.desk hchecked hregistry haddress
        ⟨naming, settings.confirmation.timeoutSecs, false⟩ rfl
      simp only [wire, hregistry, haddress] at hrooted ⊢
      exact agree_of_wiring (d := ⟨naming, settings.confirmation.timeoutSecs, false⟩) hruled haccount
        (.refl t) settings.propagation plan.wiring hrooted

/-- **The check beforehand never changes what a run achieves.**  The one thing that has to be taken
for granted is that no record gives the root away, that is, that no digest of a node and a label is
zero. -/
theorem precheck_run {components : List Component} {naming : Option String}
    {wiring : List WiringStep} {plan : Plan} {deployer : Address} {s : Session World}
    (hplan : Plan.make components naming wiring = .ok plan) (haccount : deployer ≠ .zero 20)
    (hfresh : s.ledger.state = {}) (hlag : s.ledger.faults.lag = 0)
    (hreadable : s.ledger.faults.unreadable = false) (hidle : s.token = {}) (settings : Settings)
    (start : Registry)
    (hrooted : Rooted (reportOf (run (Simulated.ledger deployer) plan
      { settings with precheck := false } start s).1).assignments) :
    Matches
      (run (Simulated.ledger deployer) plan { settings with precheck := false } start s)
      (run (Simulated.ledger deployer) plan { settings with precheck := true } start s) := by
  have hcalm : Calm deployer s := by
    refine ⟨hidle, ⟨hlag, hreadable, by rw [hfresh]⟩, fun address contract hcontract => ?_⟩
    rw [hfresh] at hcontract
    cases hcontract
  have hstart : Founded deployer plan start s [] { registry := start } s :=
    ⟨hcalm, ⟨rfl, by rw [hfresh]; rfl⟩, afterComponents_nil, fun r hr => .inl hr,
      fun hne => absurd rfl hne⟩
  have hstep : ∀ {earlier c later p t p' t'}, plan.components = earlier ++ c :: later →
      Founded deployer plan start s earlier p t →
      deployNext (Simulated.ledger deployer) settings earlier.length c p t = (.ok p', t') →
      Founded deployer plan start s (earlier ++ [c]) p' t' := by
    intro earlier c later p t p' t' _ h hnext
    rcases deployNext_cases hnext with ⟨address, registry, hp, hdeployed⟩ | ⟨e, hp, -⟩ <;> cases hp
    exact h.next hdeployed
  rcases inOrder_cases (deployNext (Simulated.ledger deployer) settings) hstart hstep with
    ⟨p, t, hrun, hp⟩ | ⟨earlier, c, later, p, t, f, t', -, -, -, hrun⟩
  · -- the check comes in when everything is deployed
    have hrun' : ∀ precheck, run (Simulated.ledger deployer) plan { settings with precheck } start
        s = _ := fun precheck => run_of_deployed hrun
    rw [hrun'] at hrooted
    rw [hrun', hrun']
    exact matches_of_agree (agree_of_wire (Plan.checked_of_make hplan) haccount hp hrooted)
  · have hrun' : ∀ precheck, run (Simulated.ledger deployer) plan { settings with precheck } start
        s = (.error f, t') := fun precheck => run_of_deploying_error hrun
    rw [hrun', hrun']
    exact .refl (.error f) t'

/-- Only a step that assigns below a node leaves a record of an owner, of the child. -/
theorem child_of_recorded {deployer : Address} {naming : Except DeployError Address}
    {registry : Registry} {step : WiringStep} {m : Submission × Assignment} {node : Node}
    (h : Recorded deployer naming registry step m) (hgives : Gives node m.2) :
    ∃ parent label owner, step = .assignSubnode parent label owner ∧
      Naming.child (Naming.node parent) label = node := by
  obtain ⟨i, receipt, hintent, -, -, -, hrecord⟩ := h
  rw [hrecord] at hgives
  obtain ⟨hrole, hnode⟩ := hgives
  cases step with
  | awaitPropagation path owner => cases hintent
  | assignSubnode parent label owner =>
    obtain ⟨_, -, h⟩ := bind_eq_ok (Option.some.inj hintent)
    obtain ⟨_, -, h⟩ := bind_eq_ok h
    cases h
    exact ⟨parent, label, owner, rfl, Option.some.inj hnode⟩
  | _ =>
    obtain ⟨_, -, h⟩ := bind_eq_ok (Option.some.inj hintent)
    obtain ⟨_, -, h⟩ := bind_eq_ok h
    cases h
    cases hrole

theorem Shows.rooted {l : Ledger World} {plan : Plan} {start registry : Registry}
    {deployed : List Component} {taken : List WiringStep} {assignments : List Assignment}
    {made : List (Submission × Resource)} {noted : List (Submission × Assignment)}
    (h : Shows l plan start deployed taken registry assignments made noted)
    (hchildren : ∀ parent label owner, .assignSubnode parent label owner ∈ taken →
      Naming.child (Naming.node parent) label ≠ Naming.root) : Rooted assignments := by
  intro a ha hgives
  rw [h.assignments] at ha
  obtain ⟨m, hm, rfl⟩ := List.mem_map.1 ha
  obtain ⟨step, hstep, hrecorded⟩ := forall₂_mem_right h.recorded hm
  obtain ⟨parent, label, owner, rfl, hchild⟩ := child_of_recorded hrecorded hgives
  exact hchildren parent label owner (List.mem_of_mem_filter hstep) hchild

/-- No record of a run gives the root away, if no child that its plan assigns has the node of the
root. -/
theorem rooted_of_run {l : Ledger World} {plan : Plan} (hchecked : plan.Checked)
    (hchildren : ∀ parent label owner, .assignSubnode parent label owner ∈ plan.wiring →
      Naming.child (Naming.node parent) label ≠ Naming.root) (settings : Settings) (start : Registry)
    (s : Session World) : Rooted (reportOf (run l plan settings start s).1).assignments := by
  have hends := positioned_of_ran hchecked (standing_of_run l plan settings start s)
  generalize (run l plan settings start s).1 = outcome at hends
  cases hends with
  | complete hstate hshows hsent => exact hshows.rooted hchildren
  | deploying hindex hstep hstate hlast hshows hsent =>
    exact hshows.rooted fun _ _ _ hmem => nomatch hmem
  | wiring hindex hcomponents hstep hstate hlast hshows hsent =>
    exact hshows.rooted fun parent label owner hmem =>
      hchildren parent label owner (List.mem_of_mem_take hmem)

theorem precheck_run_lending :
    Plan.make lending.components lending.registry lending.wiring = .ok lending ∧
      Address.defaultDeployer ≠ .zero 20 ∧
      Rooted (reportOf (run (Simulated.ledger Address.defaultDeployer) lending {} {}
        { ledger := {} }).1).assignments ∧
      Matches
        (run (Simulated.ledger Address.defaultDeployer) lending {} {} { ledger := {} })
        (run (Simulated.ledger Address.defaultDeployer) lending { precheck := true } {}
          { ledger := {} }) := by
  have hplan : Plan.make lending.components lending.registry lending.wiring = .ok lending := by cbv
  have haccount : Address.defaultDeployer ≠ .zero 20 := by decide
  have hchild : Naming.child (Naming.node "") "eth" ≠ Naming.root :=
    Naming.child_ne_of_digest (by decide +kernel) (by decide +kernel)
  have hrooted : Rooted (reportOf (run (Simulated.ledger Address.defaultDeployer) lending {} {}
      { ledger := {} }).1).assignments := by
    refine rooted_of_run (Plan.checked_of_make hplan) (fun parent label owner hmem => ?_) {} {} _
    have hsame : parent = "" ∧ label = "eth" := by
      simp only [lending, List.mem_cons, List.not_mem_nil, WiringStep.assignSubnode.injEq] at hmem
      tauto
    rw [hsame.1, hsame.2]
    exact hchild
  exact ⟨hplan, haccount, hrooted,
    precheck_run (s := { ledger := {} }) hplan haccount rfl rfl rfl rfl {} {} hrooted⟩

end Run

end Rollout
