import Rollout.Proofs.Data.Keccak
import Rollout.Proofs.Ledger.History
import Rollout.Proofs.Run.Position
import Rollout.Proofs.Run.Requests

/-!
# Proofs/Run/Report — the report of a run tells what is on the ledger

On the ledger in memory, a run that starts with nothing there ends with exactly what its report
lists: the contracts are the resources that were produced, and the maps of assignments are what the
records say, replayed in order (`told`).  If the failure names a pending transaction, the request of
the failed step has been executed on top of that, and nothing else (`report_run`).

The proof follows the run with one invariant for each phase (`Built`, `Wired`); a step either leaves
the holdings alone, or changes them as its receipt tells.
-/

namespace Rollout.Run

open Simulated (World State Contract Alike Executed stateAfter_await)

variable {α : Type}

/-! ## One transaction on the ledger in memory -/

theorem alike_of_reads {deployer : Address} {w w' : World}
    (h : Reads (Simulated.ledger deployer) w w') : Alike w w' := by
  induction h with
  | refl => exact .refl w
  | tail _ hread ih =>
    obtain ⟨registry, node, rfl⟩ := hread
    exact ih.trans (Simulated.alike_owner ..)

/-- What a transaction did to the world: nothing, if it was not accepted; what was asked for,
without anybody knowing; or what its receipt tells. -/
inductive Settled (deployer : Address) (request : Request) (w w' : World) :
    Except DeployError Receipt → Prop where
  | kept {e : DeployError} (hpending : e.pending = none) (hsame : w' = w) :
      Settled deployer request w w' (.error e)
  | unknown {e : DeployError} {transaction : Digest} (hpending : e.pending = some transaction)
      (hsubmit : w' = (Simulated.submit deployer request w).2) :
      Settled deployer request w w' (.error e)
  | known {receipt : Receipt} (hexecuted : Executed deployer w.state w'.state request receipt)
      (hfaults : w'.faults = w.faults) : Settled deployer request w w' (.ok receipt)

theorem settled_of_transact {deployer : Address} {timeoutSecs : Nat} {operation : Operation}
    {request : Request} {refusal : LedgerError → DeployError} {s s' : Session World}
    {outcome : Except DeployError Receipt} (hrefusal : ∀ error, (refusal error).pending = none)
    (h : transact (Simulated.ledger deployer) timeoutSecs operation request refusal s =
      (outcome, s')) : Settled deployer request s.ledger s'.ledger outcome := by
  cases transacted_of_transact h with
  | unsent hledger hjournal => exact .kept rfl hledger
  | refused hsubmit hjournal => exact .kept (hrefusal _) (Simulated.submit_eq_error hsubmit)
  | @unanswered transaction state e _ hsubmit herror hledger hjournal =>
    have hstate : s'.ledger = state := by
      rcases hledger with h | ⟨limit, h⟩
      · exact h
      · exact h.trans (stateAfter_await transaction limit state)
    have hpending : e.pending = some transaction := by
      rcases herror with rfl | rfl <;> rfl
    exact .unknown hpending (hstate.trans (congrArg Prod.snd hsubmit).symm)
  | @answered transaction state limit _ answer _ hsubmit hawait hjournal =>
    obtain ⟨receipt, hreceipt, hexecuted⟩ := Simulated.executed_of_submit hsubmit
    have hsettled := (Simulated.await_of_receipt limit hreceipt).symm.trans hawait
    split at hsettled
    · cases hsettled
    · simp only [Confirmation.settled.injEq] at hsettled
      obtain ⟨-, rfl, rfl⟩ := hsettled
      have hfaults := congrArg (·.2.faults) hsubmit
      exact .known hexecuted (hfaults.symm.trans (Simulated.faults_submit ..))

/-! ## Records replayed -/

/-- The effect of a wiring step, as the record of its assignment tells it. -/
def replay (s : State) : WiringStep × Assignment → State
  | (.assignSubnode _ _ _, ⟨_, _, some node, target, assigned, _, _⟩) =>
    { s with owners := s.owners.insert (target, node) assigned }
  | (.bindResolver _ _, ⟨_, _, some node, target, assigned, _, _⟩) =>
    { s with resolvers := s.resolvers.insert (target, node) assigned }
  | (.bindInterface _ _ interfaceId _, ⟨_, _, some node, target, assigned, _, _⟩) =>
    { s with interfaces := s.interfaces.insert (target, node, interfaceId) assigned }
  | (.authorizeController _ _, ⟨_, _, _, target, assigned, _, _⟩) =>
    { s with controllers := s.controllers.insert target (s.controllersOf target ++ [assigned]) }
  | _ => s

/-- The record of a call tells its effect. -/
theorem replay_record {deployer : Address} {naming : Except DeployError Address}
    {registry : Registry} {step : WiringStep} {i : Intent} {receipt : Receipt} {record : Assignment}
    (hintent : intentOf deployer naming registry step = some (.ok i))
    (hrecord : i.record receipt = .ok record) (s : State) :
    replay s (step, record) = s.apply i.target i.call := by
  rw [Intent.record, recordOf] at hrecord
  split at hrecord <;> cases hrecord
  cases step with
  | awaitPropagation path owner => cases hintent
  | _ =>
    obtain ⟨a, -, h⟩ := bind_eq_ok (Option.some.inj hintent)
    obtain ⟨b, -, h⟩ := bind_eq_ok h
    cases h
    rfl

/-! ## Steps on the ledger in memory -/

/-- A failed step left the holdings alone, or had its request executed without knowing. -/
inductive Halted (deployer : Address) (request : Option (Except DeployError Request)) (w w' : World)
    (e : DeployError) : Prop where
  | kept (hpending : e.pending = none) (hsame : Alike w w')
  | unknown {r : Request} {transaction : Digest} (hrequest : request = some (.ok r))
      (hpending : e.pending = some transaction) (hsame : Alike (Simulated.submit deployer r w).2 w')

section Halted

variable {deployer : Address} {w w' w'' : World} {e : DeployError}

theorem Halted.after {request : Option (Except DeployError Request)}
    (h : Halted deployer request w' w'' e) (halike : Alike w w') :
    Halted deployer request w w'' e := by
  cases h with
  | kept hpending hsame => exact .kept hpending (halike.trans hsame)
  | unknown hrequest hpending hsame =>
    exact .unknown hrequest hpending ((halike.submit deployer _).trans hsame)

/-- A step that succeeds had its request executed, and read its result off the receipt. -/
theorem executed_of_settled {request : Request} {outcome : Except DeployError Receipt}
    {f : Receipt → Except DeployError α} {a : α} (h : Settled deployer request w w' outcome)
    (ha : outcome.bind f = .ok a) :
    ∃ receipt, f receipt = .ok a ∧ Executed deployer w.state w'.state request receipt ∧
      w'.faults = w.faults := by
  cases h with
  | kept hpending hsame => cases ha
  | unknown hpending hsubmit => cases ha
  | @known receipt hexecuted hfaults => exact ⟨receipt, ha, hexecuted, hfaults⟩

/-- A step that fails once its request has a receipt fails because the request was reverted. -/
theorem halted_of_settled {request : Request} {outcome : Except DeployError Receipt}
    {f : Receipt → Except DeployError α} (h : Settled deployer request w w' outcome)
    (he : outcome.bind f = .error e) (hpending : ∀ receipt, f receipt = .error e → e.pending = none)
    (hreverted : ∀ receipt, Executed deployer w.state w'.state request receipt →
      f receipt = .error e → w'.state.holdings = w.state.holdings) :
    Halted deployer (some (.ok request)) w w' e := by
  cases h with
  | kept hpending hsame =>
    cases he
    exact .kept hpending (hsame ▸ .refl _)
  | unknown hpending hsubmit =>
    cases he
    exact .unknown rfl hpending (hsubmit ▸ .refl _)
  | known hexecuted hfaults => exact .kept (hpending _ he) ⟨hreverted _ hexecuted he, hfaults⟩

end Halted

section Steps

variable {deployer : Address} {timeoutSecs : Nat} {c : Component} {registry : Registry} {d : Desk}
  {step : WiringStep} {s s' : Session World}

/-- A component that was deployed is the contract at the next address of the deployer. -/
theorem produced_of_deployed {address : Address} {extended : Registry}
    (h : Deployed (Simulated.ledger deployer) timeoutSecs c registry s (.ok (address, extended))
      s') :
    ∃ creation resource, creationOf registry deployer c = .ok creation ∧
      resource.name = creation.name ∧
      resource.address = deployer.ofCreation s.ledger.state.nonce ∧
      extended.resources = registry.resources ++ [resource] ∧
      s'.ledger.faults = s.ledger.faults ∧
      s'.ledger.state.holdings = s.ledger.state.holdings.produce deployer creation := by
  generalize hr : Except.ok (address, extended) = r at h
  cases h with
  | duplicate hpresent => cases hr
  | unresolved hfresh hcreation => cases hr
  | sent hfresh hcreation htransact =>
    have hsettled := settled_of_transact (pending_creationError c.name) htransact
    obtain ⟨receipt, hcreated, hexecuted, hfaults⟩ := executed_of_settled hsettled hr.symm
    obtain ⟨haddress, rfl⟩ := created_eq_ok hcreated
    obtain ⟨args, libraries, -, -, rfl⟩ := creationOf_eq_ok hcreation
    cases hexecuted with
    | reverted hreceipt hholdings => simp [createdAddress, hreceipt] at haddress
    | created hreceipt hcontract hholdings =>
      simp only [createdAddress, hreceipt, hcontract, if_true, Except.ok.injEq] at haddress
      exact ⟨_, _, hcreation, rfl, haddress.symm, rfl, hfaults, hholdings⟩

theorem halted_of_deployed {e : DeployError}
    (h : Deployed (Simulated.ledger deployer) timeoutSecs c registry s (.error e) s') :
    Halted deployer (some (creationRequest deployer registry c)) s.ledger s'.ledger e := by
  generalize hr : Except.error e = r at h
  cases h with
  | duplicate hpresent =>
    cases hr
    exact .kept rfl (.refl _)
  | unresolved hfresh hcreation =>
    cases hr
    obtain ⟨name, -, -, rfl⟩ := creationOf_eq_error hcreation
    exact .kept rfl (.refl _)
  | sent hfresh hcreation htransact =>
    have hsettled := settled_of_transact (pending_creationError c.name) htransact
    rw [creationRequest, show creationOf registry deployer c = _ from hcreation]
    refine halted_of_settled hsettled hr.symm (fun _ => pending_created)
      fun _ hexecuted hcreated => ?_
    cases hexecuted with
    | reverted hreceipt hholdings => exact hholdings
    | created hreceipt haddress hholdings =>
      simp [created, createdAddress, hreceipt, haddress, Except.map] at hcreated

/-- A wiring step that was taken only waited, or its record tells what it changed. -/
theorem replayed_of_taken {made : Option Assignment}
    (h : Taken (Simulated.ledger deployer) d registry step s (.ok made) s') :
    (assigns step = false ∧ made = none ∧ Alike s.ledger s'.ledger) ∨
    ∃ record, assigns step = true ∧ made = some record ∧ s'.ledger.faults = s.ledger.faults ∧
      s'.ledger.state.holdings = replay s.ledger.state.holdings (step, record) := by
  generalize hr : Except.ok made = r at h
  cases h with
  | waited hquiet hintent =>
    cases hr
    have hassigns := assigns_of_intent.trans (congrArg Option.isSome hintent)
    exact .inl ⟨hassigns, rfl, alike_of_reads hquiet.reads⟩
  | stopped hquiet hpending => cases hr
  | @called i t _ _ hintent hquiet htransact =>
    have halike := alike_of_reads hquiet.reads
    have hsettled := settled_of_transact (pending_callError _ _) htransact
    obtain ⟨receipt, hmade, hexecuted, hfaults⟩ := executed_of_settled hsettled hr.symm
    obtain ⟨record, hrecord, rfl⟩ := map_eq_ok hmade
    have hassigns := assigns_of_intent.trans (congrArg Option.isSome hintent)
    refine .inr ⟨record, hassigns, rfl, hfaults.trans halike.faults, ?_⟩
    change Executed deployer _ _ (.call i.target i.call) receipt at hexecuted
    cases hexecuted with
    | reverted hreceipt hholdings => simp [Intent.record, recordOf, hreceipt] at hrecord
    | called hreceipt hholdings =>
      rw [hholdings, halike.holdings, replay_record hintent hrecord]

theorem halted_of_taken {e : DeployError}
    (h : Taken (Simulated.ledger deployer) d registry step s (.error e) s') :
    Halted deployer (callRequest deployer (.ok d.registry) registry step) s.ledger s'.ledger e := by
  generalize hr : Except.error e = r at h
  cases h with
  | waited hquiet hintent => cases hr
  | stopped hquiet hpending =>
    cases hr
    exact .kept hpending (alike_of_reads hquiet.reads)
  | @called i t _ outcome hintent hquiet htransact =>
    have hsettled := settled_of_transact (pending_callError _ _) htransact
    rw [callRequest, show intentOf deployer _ registry step = _ from hintent]
    refine Halted.after ?_ (alike_of_reads hquiet.reads)
    refine halted_of_settled hsettled hr.symm (fun _ => pending_record)
      fun _ hexecuted hrecord => ?_
    change Executed deployer _ _ (.call i.target i.call) _ at hexecuted
    cases hexecuted with
    | reverted hreceipt hholdings => exact hholdings
    | called hreceipt hholdings => simp [Intent.record, recordOf, hreceipt, Except.map] at hrecord

end Steps

/-! ## What a report tells of -/

/-- A creation that was carried out, as the ledger and the registry hold it. -/
def entryOf (deployer : Address) (m : Creation × Resource) : Address × Contract :=
  (m.2.address, ⟨m.1.contract, deployer, m.1.args⟩)

/-- The state in which contracts have been created one after the other. -/
def built (deployer : Address) (made : List (Creation × Resource)) : State :=
  { nonce := made.length, contracts := ⟨made.map (entryOf deployer)⟩ }

/-- **The state that a report tells of**: the contracts that were made, and the records of the
wiring steps replayed in order. -/
def told (deployer : Address) (plan : Plan) (made : List (Creation × Resource))
    (assignments : List Assignment) : State :=
  ((plan.wiring.filter assigns).zip assignments).foldl replay (built deployer made)

/-- The creations of the given components, each with the resource that it left in the registry. -/
structure Made (deployer : Address) (start : Registry) (components : List Component)
    (registry : Registry) (made : List (Creation × Resource)) : Prop where
  resources : registry.resources = start.resources ++ made.map Prod.snd
  creations : made.map (fun m => .ok m.1) = components.map (creationOf registry deployer)
  names : ∀ m ∈ made, m.2.name = m.1.name
  addresses : made.map (fun m => m.2.address) = (List.range made.length).map deployer.ofCreation

theorem Made.next {deployer : Address} {start registry extended : Registry}
    {components : List Component} {c : Component} {made : List (Creation × Resource)}
    {creation : Creation} {resource : Resource}
    (h : Made deployer start components registry made)
    (hcreation : creationOf registry deployer c = .ok creation)
    (hname : resource.name = creation.name)
    (haddress : resource.address = deployer.ofCreation made.length)
    (hresources : extended.resources = registry.resources ++ [resource]) :
    Made deployer start (components ++ [c]) extended (made ++ [(creation, resource)]) where
  resources := by
    rw [hresources, h.resources, List.map_append, List.append_assoc, List.map_singleton]
  creations := by
    refine map_ok_of_imp (f := creationOf registry deployer) ?_ fun a b hb => ?_
    · rw [List.map_append, List.map_append, h.creations, List.map_singleton, List.map_singleton,
        hcreation]
    · exact creationOf_mono hb ⟨_, hresources.symm⟩
  names := by
    intro m hm
    rcases List.mem_append.1 hm with hm | hm
    · exact h.names m hm
    · rwa [List.mem_singleton.1 hm]
  addresses := by
    rw [List.map_append, List.map_singleton, h.addresses, haddress, List.length_append,
      List.length_singleton, List.range_succ, List.map_append, List.map_singleton]

theorem put_of_fresh {K V : Type} [DecidableEq K] {key : K} (value : V) {entries : List (K × V)}
    (h : ∀ entry ∈ entries, entry.1 ≠ key) :
    Assoc.put key value entries = entries ++ [(key, value)] := by
  induction entries with
  | nil => rfl
  | cons entry rest ih =>
    rw [Assoc.put, if_neg (h entry (List.mem_cons_self ..)),
      ih fun other hother => h other (List.mem_cons_of_mem _ hother)]
    rfl

/-- A contract at a new address is added at the end. -/
theorem built_next {deployer : Address} {made : List (Creation × Resource)} {creation : Creation}
    {resource : Resource} (haddress : resource.address = deployer.ofCreation made.length)
    (hfresh : ∀ m ∈ made, m.2.address ≠ deployer.ofCreation made.length) :
    (built deployer made).produce deployer creation =
      built deployer (made ++ [(creation, resource)]) := by
  have hput : Assoc.put (deployer.ofCreation made.length)
      ⟨creation.contract, deployer, creation.args⟩ (made.map (entryOf deployer)) =
      (made ++ [(creation, resource)]).map (entryOf deployer) := by
    rw [List.map_append, List.map_singleton, entryOf, haddress]
    refine put_of_fresh _ fun entry hentry => ?_
    obtain ⟨m, hm, rfl⟩ := List.mem_map.1 hentry
    exact hfresh m hm
  rw [State.produce, built, built, List.length_append, ← hput]
  rfl

theorem Made.fresh {deployer : Address} {start registry : Registry} {components : List Component}
    {made : List (Creation × Resource)} (h : Made deployer start components registry made) {n : Nat}
    (hdistinct : ∀ i j, i < n → j < n → deployer.ofCreation i = deployer.ofCreation j → i = j)
    (hn : made.length < n) : ∀ m ∈ made, m.2.address ≠ deployer.ofCreation made.length := by
  intro m hm hsame
  have haddress : m.2.address ∈ made.map fun m => m.2.address := List.mem_map_of_mem hm
  rw [h.addresses] at haddress
  obtain ⟨i, hi, hmade⟩ := List.mem_map.1 haddress
  have hlt : i < made.length := List.mem_range.1 hi
  have := hdistinct i made.length (by omega) hn (hmade.trans hsame)
  omega

/-! ## The invariants -/

section Invariants

variable (deployer : Address) (plan : Plan) (start : Registry) (faults : Simulated.Faults)

/-- While components are deployed, the ledger holds their contracts. -/
def Built (earlier : List Component) (p : Progress) (t : Session World) : Prop :=
  t.ledger.faults = faults ∧ p.assignments = [] ∧ ∃ made,
    Made deployer start earlier p.registry made ∧ t.ledger.state.holdings = built deployer made

/-- While steps are taken, the ledger holds all contracts and what the records say. -/
def Wired (d : Desk) (earlier : List WiringStep) (p : Progress) (t : Session World) : Prop :=
  t.ledger.faults = faults ∧ namingOf plan p.registry = .ok d.registry ∧
    (earlier.filter assigns).length = p.assignments.length ∧ ∃ made,
    Made deployer start plan.components p.registry made ∧
    t.ledger.state.holdings =
      ((earlier.filter assigns).zip p.assignments).foldl replay (built deployer made)

end Invariants

section Preserved

variable {deployer : Address} {plan : Plan} {start : Registry} {faults : Simulated.Faults}
  {p : Progress} {t t' : Session World}

theorem built_nil {s : Session World} (h : s.ledger.state = {}) :
    Built deployer start s.ledger.faults [] { registry := start } s := by
  refine ⟨rfl, rfl, [], ⟨by simp, rfl, by simp, rfl⟩, ?_⟩
  rw [h]
  rfl

theorem Built.next {settings : Settings} {earlier later : List Component} {c : Component}
    {address : Address} {extended : Registry}
    (hdistinct : ∀ i j, i < plan.components.length → j < plan.components.length →
      deployer.ofCreation i = deployer.ofCreation j → i = j)
    (hsplit : plan.components = earlier ++ c :: later) (h : Built deployer start faults earlier p t)
    (hdeployed : Deployed (Simulated.ledger deployer) settings.confirmation.timeoutSecs c p.registry
      t (.ok (address, extended)) t') (completed : Option String) :
    Built deployer start faults (earlier ++ [c]) ⟨extended, p.assignments, completed⟩ t' := by
  obtain ⟨hfaults, hassignments, made, hmade, hholdings⟩ := h
  obtain ⟨creation, resource, hcreation, hname, haddress, hresources, hsame, hproduced⟩ :=
    produced_of_deployed hdeployed
  have hnonce : t.ledger.state.nonce = made.length := congrArg State.nonce hholdings
  rw [hnonce] at haddress
  have hlength : made.length < plan.components.length := by
    have := congrArg List.length hmade.creations
    simp only [List.length_map] at this
    rw [hsplit, List.length_append, List.length_cons, this]
    omega
  refine ⟨hsame.trans hfaults, hassignments, made ++ [(creation, resource)],
    hmade.next hcreation hname haddress hresources, ?_⟩
  rw [hproduced, hholdings, built_next haddress (hmade.fresh hdistinct hlength)]

theorem Built.desk {d : Desk} {name : String} (h : Built deployer start faults plan.components p t)
    (hregistry : plan.registry = some name) (haddress : p.registry.address name = .ok d.registry) :
    Wired deployer plan start faults d [] p t := by
  obtain ⟨hfaults, hassignments, made, hmade, hholdings⟩ := h
  refine ⟨hfaults, by simp [namingOf, hregistry, haddress], ?_, made, hmade, hholdings⟩
  rw [hassignments]
  rfl

theorem Wired.next {d : Desk} {earlier : List WiringStep} {step : WiringStep}
    {made : Option Assignment} (h : Wired deployer plan start faults d earlier p t)
    (htaken : Taken (Simulated.ledger deployer) d p.registry step t (.ok made) t')
    (completed : Option String) :
    Wired deployer plan start faults d (earlier ++ [step])
      ⟨p.registry, p.assignments ++ made.toList, completed⟩ t' := by
  obtain ⟨hfaults, hnaming, hlength, list, hmade, hholdings⟩ := h
  rcases replayed_of_taken htaken with
    ⟨hassigns, rfl, halike⟩ | ⟨record, hassigns, rfl, hsame, hreplayed⟩
  · have hfilter : (earlier ++ [step]).filter assigns = earlier.filter assigns := by
      simp [hassigns]
    refine ⟨halike.faults.trans hfaults, hnaming, ?_, list, hmade, ?_⟩
    · rw [hfilter, hlength, Option.toList_none, List.append_nil]
    · rw [hfilter, halike.holdings, hholdings, Option.toList_none, List.append_nil]
  · have hfilter : (earlier ++ [step]).filter assigns = earlier.filter assigns ++ [step] := by
      simp [hassigns]
    refine ⟨hsame.trans hfaults, hnaming, ?_, list, hmade, ?_⟩
    · rw [hfilter, List.length_append, List.length_append, hlength]
      rfl
    · rw [hfilter, hreplayed, hholdings, Option.toList_some, List.zip_append hlength,
        List.foldl_append]
      rfl

end Preserved

/-! ## The report and the ledger -/

/-- The request of the step that a run is at. -/
def requestAt (deployer : Address) (plan : Plan) (registry : Registry) :
    RunState → Option (Except DeployError Request)
  | .deploying index => plan.components[index]?.map (creationRequest deployer registry)
  | .wiring index =>
    plan.wiring[index]?.bind (callRequest deployer (namingOf plan registry) registry)
  | _ => none

/-- **The outcome of a run tells what the ledger holds.**  `made` are the creations of the first
components, each with the resource that the run added for it. -/
structure Tells (deployer : Address) (plan : Plan) (start : Registry) (faults : Simulated.Faults)
    (outcome : Except Failure Report) (state : State) (made : List (Creation × Resource)) :
    Prop where
  resources : (reportOf outcome).resources = start.resources ++ made.map Prod.snd
  names : ∀ m ∈ made, m.2.name = m.1.name
  creations : made.map (fun m => .ok m.1) <+:
    plan.components.map (creationOf ⟨(reportOf outcome).resources⟩ deployer)
  /-- Every record belongs to a wiring step. -/
  records : (reportOf outcome).assignments.length ≤ (plan.wiring.filter assigns).length
  /-- With nothing pending, the contracts are those of the resources, -/
  contracts : pendingOf outcome = none → state.contracts = ⟨made.map (entryOf deployer)⟩
  /-- and the ledger holds what the records say. -/
  settled : pendingOf outcome = none →
    state.holdings = told deployer plan made (reportOf outcome).assignments
  /-- Otherwise the request of the failed step has been executed on top of that. -/
  pending : ∀ failure transaction, outcome = .error failure → failure.pending = some transaction →
    ∃ request, requestAt deployer plan ⟨failure.report.resources⟩ failure.failedStep =
        some (.ok request) ∧
      state.holdings = (Simulated.submit deployer request
        ⟨told deployer plan made failure.report.assignments, faults⟩).2.state.holdings

theorem contracts_replay (steps : List (WiringStep × Assignment)) (s : State) :
    (steps.foldl replay s).contracts = s.contracts := by
  induction steps generalizing s with
  | nil => rfl
  | cons step rest ih =>
    rw [List.foldl_cons, ih]
    unfold replay
    split <;> rfl

theorem zip_of_shorter {β : Type} {as bs : List α} {cs : List β} (h : as <+: bs)
    (hlength : as.length = cs.length) : bs.zip cs = as.zip cs := by
  obtain ⟨more, rfl⟩ := h
  have hzip : (as ++ more).zip (cs ++ []) = as.zip cs ++ more.zip [] := List.zip_append hlength
  rwa [List.append_nil, List.zip_nil_right, List.append_nil] at hzip

/-- The progress of a run accounts for the ledger: what both phases have in common. -/
structure Accounted (deployer : Address) (plan : Plan) (start : Registry)
    (faults : Simulated.Faults) (p : Progress) (w : World) (made : List (Creation × Resource)) :
    Prop where
  resources : p.registry.resources = start.resources ++ made.map Prod.snd
  names : ∀ m ∈ made, m.2.name = m.1.name
  creations : made.map (fun m => .ok m.1) <+: plan.components.map (creationOf p.registry deployer)
  records : p.assignments.length ≤ (plan.wiring.filter assigns).length
  holdings : w.state.holdings = told deployer plan made p.assignments
  faults : w.faults = faults

section Tells

variable {deployer : Address} {plan : Plan} {settings : Settings} {start : Registry}
  {faults : Simulated.Faults} {p : Progress} {t : Session World} {w w' : World}
  {made : List (Creation × Resource)} {outcome : Except Failure Report}

theorem Built.accounted {earlier : List Component} (h : Built deployer start faults earlier p t)
    (hearlier : earlier <+: plan.components) :
    ∃ made, Accounted deployer plan start faults p t.ledger made := by
  obtain ⟨hfaults, hassignments, made, hmade, hholdings⟩ := h
  have htold : told deployer plan made p.assignments = built deployer made := by
    rw [told, hassignments, List.zip_nil_right]
    rfl
  have hcreations : made.map (fun m => .ok m.1) <+:
      plan.components.map (creationOf p.registry deployer) := by
    rw [hmade.creations]
    exact hearlier.map _
  have hrecords : p.assignments.length ≤ (plan.wiring.filter assigns).length := by
    simp [hassignments]
  exact ⟨made, hmade.resources, hmade.names, hcreations, hrecords, hholdings.trans htold.symm,
    hfaults⟩

theorem Wired.accounted {d : Desk} {earlier : List WiringStep}
    (h : Wired deployer plan start faults d earlier p t) (hearlier : earlier <+: plan.wiring) :
    ∃ made, Accounted deployer plan start faults p t.ledger made := by
  obtain ⟨hfaults, -, hlength, made, hmade, hholdings⟩ := h
  have hassigning : earlier.filter assigns <+: plan.wiring.filter assigns :=
    List.IsPrefix.filter assigns hearlier
  have htold : told deployer plan made p.assignments =
      ((earlier.filter assigns).zip p.assignments).foldl replay (built deployer made) := by
    rw [told, zip_of_shorter hassigning hlength]
  have hcreations : made.map (fun m => .ok m.1) <+:
      plan.components.map (creationOf p.registry deployer) :=
    hmade.creations ▸ List.prefix_rfl
  exact ⟨made, hmade.resources, hmade.names, hcreations, hlength ▸ hassigning.length_le,
    hholdings.trans htold.symm, hfaults⟩

theorem tells_of_report (h : Accounted deployer plan start faults p w made) :
    Tells deployer plan start faults (.ok p.report) w.state made where
  resources := h.resources
  names := h.names
  creations := h.creations
  records := h.records
  contracts _ := (congrArg State.contracts h.holdings).trans (contracts_replay ..)
  settled _ := h.holdings
  pending := by rintro _ _ ⟨⟩

theorem tells_of_halted {state : RunState} {e : DeployError}
    (h : Accounted deployer plan start faults p w made)
    (hhalted : Halted deployer (requestAt deployer plan p.registry state) w w' e) :
    Tells deployer plan start faults (.error (p.fail state e)) w'.state made := by
  -- with nothing pending, the ledger is as it was before the step that failed
  have hsettled : e.pending = none →
      w'.state.holdings = told deployer plan made p.assignments := by
    intro hnone
    cases hhalted with
    | kept hpending hsame => exact hsame.holdings.trans h.holdings
    | unknown hrequest hpending hsame => cases hpending.symm.trans hnone
  refine ⟨h.resources, h.names, h.creations, h.records, fun hnone => ?_, hsettled, ?_⟩
  · exact (congrArg State.contracts (hsettled hnone)).trans (contracts_replay ..)
  · rintro _ transaction ⟨⟩ hsome
    cases hhalted with
    | kept hpending hsame => cases hpending.symm.trans hsome
    | @unknown request _ hrequest hpending hsame =>
      refine ⟨request, hrequest, ?_⟩
      rw [hsame.holdings, ← Simulated.holdings_submit, h.holdings, h.faults]
      rfl

theorem tells_of_ran (h : Ran (Simulated.ledger deployer) plan settings
      (Built deployer start faults) (Wired deployer plan start faults) outcome t) :
    ∃ made, Tells deployer plan start faults outcome t.ledger.state made := by
  cases h with
  | deployed hregistry hbuilt =>
    obtain ⟨made, haccounted⟩ := hbuilt.accounted List.prefix_rfl
    exact ⟨made, tells_of_report haccounted⟩
  | wired hwired =>
    obtain ⟨made, haccounted⟩ := hwired.accounted List.prefix_rfl
    exact ⟨made, tells_of_report haccounted⟩
  | @deploying earlier later c p _ _ e hsplit hbuilt hfailed =>
    obtain ⟨made, haccounted⟩ := hbuilt.accounted ⟨_, hsplit.symm⟩
    have hrequest : requestAt deployer plan p.registry (.deploying earlier.length) =
        some (creationRequest deployer p.registry c) := by
      simp [requestAt, hsplit]
    exact ⟨made, tells_of_halted haccounted (hrequest ▸ halted_of_deployed hfailed)⟩
  | unnamed hregistry haddress hbuilt =>
    obtain ⟨made, haccounted⟩ := hbuilt.accounted List.prefix_rfl
    obtain ⟨-, rfl⟩ := address_eq_error haddress
    exact ⟨made, tells_of_halted haccounted (.kept rfl (.refl _))⟩
  | @wiring d earlier later step p _ _ e hsplit hwired hfailed =>
    obtain ⟨made, haccounted⟩ := hwired.accounted ⟨_, hsplit.symm⟩
    have hnaming : namingOf plan p.registry = .ok d.registry := hwired.2.1
    have hrequest : requestAt deployer plan p.registry (.wiring earlier.length) =
        callRequest deployer (.ok d.registry) p.registry step := by
      simp [requestAt, hsplit, hnaming]
    exact ⟨made, tells_of_halted haccounted (hrequest ▸ halted_of_taken hfailed)⟩

end Tells

/-- **The report of a run tells exactly what is on the ledger.**  Of the addresses that the deployer
gives to contracts, only those of the first creations have to be distinct. -/
theorem report_run {deployer : Address} {plan : Plan} {settings : Settings} {start : Registry}
    {s : Session World} (hfresh : s.ledger.state = {})
    (hdistinct : ∀ i j, i < plan.components.length → j < plan.components.length →
      deployer.ofCreation i = deployer.ofCreation j → i = j) :
    ∃ made, Tells deployer plan start s.ledger.faults
      (run (Simulated.ledger deployer) plan settings start s).1
      (run (Simulated.ledger deployer) plan settings start s).2.ledger.state made := by
  have hkept : Kept (Simulated.ledger deployer) plan settings (Built deployer start s.ledger.faults)
      (Wired deployer plan start s.ledger.faults) :=
    { deployed := fun hsplit h hdeployed => h.next hdistinct hsplit hdeployed _
      desk := fun hregistry haddress h => h.desk hregistry haddress
      taken := fun _ h htaken => h.next htaken _ }
  exact tells_of_ran (hkept.ran (built_nil hfresh))

/-- The two contracts of the plan have different addresses. -/
theorem ofCreation_inj_resolving : ∀ i j, i < resolving.components.length →
    j < resolving.components.length →
      Address.defaultDeployer.ofCreation i = Address.defaultDeployer.ofCreation j → i = j := by
  intro i j hi hj
  have hfew : resolving.components.length ≤ 8 := by decide
  exact Address.ofCreation_inj_defaultDeployer i j (Nat.lt_of_lt_of_le hi hfew)
    (Nat.lt_of_lt_of_le hj hfew)

theorem report_run_resolving :
    resolving.components.length = 2 ∧ ∃ made,
      Tells Address.defaultDeployer resolving {} {}
        (run (Simulated.ledger Address.defaultDeployer) resolving {} {} { ledger := {} }).1
        (run (Simulated.ledger Address.defaultDeployer) resolving {} {}
          { ledger := {} }).2.ledger.state made :=
  ⟨rfl, report_run (s := { ledger := {} }) rfl ofCreation_inj_resolving⟩

end Rollout.Run
