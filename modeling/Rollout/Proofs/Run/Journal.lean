import Rollout.Proofs.Run.Orchestration

/-!
# Proofs/Run/Journal — what stands in the journal of a run

A plan comes down to a list of requests: one creation for each component, then one call for each
wiring step that assigns something (`requests`).  As long as a run succeeds, the journal of its
submissions is a prefix of that list, each confirmed and matched by a resource or a record
(`Journal`); the step that fails adds its own request at most (`Left`).  `ended_of_run` puts the two
together.
-/

namespace Rollout.Run

variable {σ α : Type}

/-! ## The requests of a plan -/

def creationRequest (deployer : Address) (registry : Registry) (c : Component) :
    Except DeployError Request :=
  (creationOf registry deployer c).map .create

/-- The request of a wiring step, unless it only waits. -/
def callRequest (deployer : Address) (naming : Except DeployError Address) (registry : Registry)
    (step : WiringStep) : Option (Except DeployError Request) :=
  (intentOf deployer naming registry step).map fun intent => intent.map Intent.request

/-- The address of the component that serves as the naming registry. -/
def namingOf (plan : Plan) (registry : Registry) : Except DeployError Address :=
  match plan.registry with
  | some name => registry.address name
  | none => .error (.invalidPlan .missingRegistry)

/-- **The requests that a plan comes down to**, with references looked up in `registry`: one
creation per component, then one call per wiring step that assigns something. -/
def requests (deployer : Address) (plan : Plan) (registry : Registry) :
    List (Except DeployError Request) :=
  plan.components.map (creationRequest deployer registry) ++
    plan.wiring.filterMap (callRequest deployer (namingOf plan registry) registry)

theorem creationRequest_mono {deployer : Address} {registry extended : Registry} {c : Component}
    {request : Request} (h : creationRequest deployer registry c = .ok request)
    (hext : registry.resources <+: extended.resources) :
    creationRequest deployer extended c = .ok request := by
  obtain ⟨creation, hcreation, rfl⟩ := map_eq_ok h
  rw [creationRequest, creationOf_mono hcreation hext]
  rfl

/-! ## What is submitted between two sessions -/

/-- Whatever was submitted between the two sessions has the property. -/
def Sends (P : Submission → Prop) (s s' : Session σ) : Prop :=
  ∃ sent, s'.submissions = s.submissions ++ sent ∧ ∀ x ∈ sent, P x

namespace Sends

variable {P Q : Submission → Prop} {s t s' : Session σ}

theorem of_same (h : s'.submissions = s.submissions) : Sends P s s' :=
  ⟨[], by rw [h, List.append_nil], by simp⟩

theorem of_one {x : Submission} (h : s'.submissions = s.submissions ++ [x]) (hx : P x) :
    Sends P s s' :=
  ⟨[x], h, by simpa using hx⟩

theorem trans (h : Sends P s t) (h' : Sends P t s') : Sends P s s' := by
  obtain ⟨sent, hsent, hP⟩ := h
  obtain ⟨more, hmore, hP'⟩ := h'
  refine ⟨sent ++ more, by rw [hmore, hsent, List.append_assoc], fun x hx => ?_⟩
  exact (List.mem_append.1 hx).elim (hP x) (hP' x)

theorem imp (h : Sends P s s') (hPQ : ∀ x, P x → Q x) : Sends Q s s' := by
  obtain ⟨sent, hsent, hP⟩ := h
  exact ⟨sent, hsent, fun x hx => hPQ x (hP x hx)⟩

end Sends

/-! ## What a step leaves in the journal -/

/-- A submission that was accepted and brought a receipt. -/
def Confirmed (x : Submission) : Prop :=
  ∃ transaction receipt, x.answer = .ok transaction ∧ x.settlement = some (.ok receipt)

/-- The hash of an accepted submission, if the wait for it brought no answer at all. -/
def openHash (x : Submission) : Option Digest :=
  match x.answer, x.settlement with
  | .ok transaction, none => some transaction
  | _, _ => none

theorem openHash_eq_some_iff {x : Submission} {transaction : Digest}
    (h : x.answer = .ok transaction) : openHash x = some transaction ↔ x.settlement = none := by
  rw [openHash, h]
  cases x.settlement <;> simp

theorem answer_of_openHash {x : Submission} {transaction : Digest}
    (h : openHash x = some transaction) : x.answer = .ok transaction := by
  rw [openHash] at h
  split at h <;> simp_all

/-- A failed step leaves nothing in the journal, or its request; what is pending is the open hash of
that request. -/
inductive Left (request : Option (Except DeployError Request)) (s s' : Session σ)
    (e : DeployError) : Prop where
  | nothing (hjournal : s'.submissions = s.submissions) (hpending : e.pending = none)
  | submission {x : Submission} (hjournal : s'.submissions = s.submissions ++ [x])
      (hrequest : request = some (.ok x.request)) (hpending : e.pending = openHash x)

/-- A failed step takes nothing out of the journal. -/
theorem Left.submissions {request : Option (Except DeployError Request)} {s s' : Session σ}
    {e : DeployError} (h : Left request s s' e) : s.submissions <+: s'.submissions := by
  cases h with
  | nothing hjournal hpending => exact ⟨[], by rw [hjournal, List.append_nil]⟩
  | submission hjournal hrequest hpending => exact ⟨_, hjournal.symm⟩

section Transacted

variable {l : Ledger σ} {timeoutSecs : Nat} {operation : Operation} {request : Request}
  {refusal : LedgerError → DeployError} {s s' : Session σ} {f : Receipt → Except DeployError α}
  {outcome : Except DeployError Receipt}

theorem receipt_of_bind_ok {a : α}
    (h : transact l timeoutSecs operation request refusal s = (outcome, s'))
    (ha : outcome.bind f = .ok a) :
    ∃ transaction receipt, f receipt = .ok a ∧ s'.submissions =
      s.submissions ++ [⟨request, false, .ok transaction, some (.ok receipt)⟩] := by
  cases transacted_of_transact h with
  | @answered transaction _ _ _ answer _ hsubmit hawait hjournal =>
    cases answer with
    | ok receipt => exact ⟨transaction, receipt, ha, hjournal⟩
    | error e => cases ha
  | _ => cases ha

theorem left_of_bind_error {e : DeployError} (hrefusal : ∀ error, (refusal error).pending = none)
    (hf : ∀ receipt e, f receipt = .error e → e.pending = none)
    (h : transact l timeoutSecs operation request refusal s = (outcome, s'))
    (he : outcome.bind f = .error e) : Left (some (.ok request)) s s' e := by
  cases transacted_of_transact h with
  | unsent hledger hjournal =>
    cases he
    exact .nothing hjournal rfl
  | refused hsubmit hjournal =>
    cases he
    exact .submission hjournal rfl (hrefusal _)
  | unanswered hsubmit herror hledger hjournal =>
    cases he
    refine .submission hjournal rfl ?_
    rcases herror with rfl | rfl <;> rfl
  | @answered _ _ _ _ answer _ hsubmit hawait hjournal =>
    cases answer with
    | ok receipt => exact .submission hjournal rfl (hf receipt e he)
    | error error =>
      cases he
      exact .submission hjournal rfl rfl

end Transacted

section Steps

variable {l : Ledger σ} {timeoutSecs : Nat} {c : Component} {registry : Registry} {d : Desk}
  {step : WiringStep} {s s' : Session σ}

/-- A component that was deployed was asked for and confirmed, and is the last resource. -/
theorem confirmed_of_deployed {address : Address} {extended : Registry}
    (h : Deployed l timeoutSecs c registry s (.ok (address, extended)) s') :
    ∃ x resource, s'.submissions = s.submissions ++ [x] ∧
      creationRequest l.deployer registry c = .ok x.request ∧ Confirmed x ∧
      extended.resources = registry.resources ++ [resource] := by
  generalize hr : Except.ok (address, extended) = r at h
  cases h with
  | sent hfresh hcreation htransact =>
    obtain ⟨transaction, receipt, hcreated, hjournal⟩ := receipt_of_bind_ok htransact hr.symm
    obtain ⟨-, rfl⟩ := created_eq_ok hcreated
    exact ⟨_, _, hjournal, by rw [creationRequest, hcreation]; rfl, ⟨_, receipt, rfl, rfl⟩, rfl⟩
  | _ => cases hr

/-- A wiring step that was taken either asks for nothing and left nothing, or its call was confirmed
and recorded. -/
theorem confirmed_of_taken {made : Option Assignment}
    (h : Taken l d registry step s (.ok made) s') :
    (made = none ∧ s'.submissions = s.submissions ∧
      callRequest l.deployer (.ok d.registry) registry step = none) ∨
    ∃ x record, made = some record ∧ s'.submissions = s.submissions ++ [x] ∧ Confirmed x ∧
      callRequest l.deployer (.ok d.registry) registry step = some (.ok x.request) := by
  generalize hr : Except.ok made = r at h
  cases h with
  | waited hquiet hintent =>
    cases hr
    exact .inl ⟨rfl, hquiet.submissions, by rw [callRequest, hintent]; rfl⟩
  | stopped hquiet hpending => cases hr
  | called hintent hquiet htransact =>
    obtain ⟨transaction, receipt, hmade, hjournal⟩ := receipt_of_bind_ok htransact hr.symm
    obtain ⟨record, -, rfl⟩ := map_eq_ok hmade
    rw [hquiet.submissions] at hjournal
    exact .inr ⟨_, record, rfl, hjournal, ⟨_, receipt, rfl, rfl⟩, by rw [callRequest, hintent]; rfl⟩

theorem left_of_deployed {e : DeployError} (h : Deployed l timeoutSecs c registry s (.error e) s') :
    Left (some (creationRequest l.deployer registry c)) s s' e := by
  generalize hr : Except.error e = r at h
  cases h with
  | duplicate hpresent =>
    cases hr
    exact .nothing rfl rfl
  | unresolved hfresh hcreation =>
    cases hr
    obtain ⟨name, -, -, rfl⟩ := creationOf_eq_error hcreation
    exact .nothing rfl rfl
  | sent hfresh hcreation htransact =>
    have hleft := left_of_bind_error (pending_creationError c.name) (fun _ _ => pending_created)
      htransact hr.symm
    rw [creationRequest, hcreation]
    exact hleft

theorem left_of_taken {e : DeployError} (h : Taken l d registry step s (.error e) s') :
    Left (callRequest l.deployer (.ok d.registry) registry step) s s' e := by
  generalize hr : Except.error e = r at h
  cases h with
  | waited hquiet hintent => cases hr
  | stopped hquiet hpending =>
    cases hr
    exact .nothing hquiet.submissions hpending
  | called hintent hquiet htransact =>
    have hleft := left_of_bind_error (pending_callError _ _) (fun _ _ => pending_record)
      htransact hr.symm
    rw [callRequest, hintent]
    cases hleft with
    | nothing hjournal hpending =>
      exact .nothing (hjournal.trans hquiet.submissions) hpending
    | submission hjournal hrequest hpending =>
      exact .submission (by rw [hjournal, hquiet.submissions]) hrequest hpending

end Steps

/-! ## The journal of a run -/

/-- What stands in the journal once the given requests are done: each was submitted, in order, and
confirmed, and left a resource or a record. -/
structure Journal (s : Session σ) (registry : Registry) (reqs : List (Except DeployError Request))
    (p : Progress) (t : Session σ) (sent : List Submission) (produced : List Resource) : Prop where
  submissions : t.submissions = s.submissions ++ sent
  resources : p.registry.resources = registry.resources ++ produced
  asked : sent.map (fun x => .ok x.request) = reqs
  confirmed : ∀ x ∈ sent, Confirmed x
  length : sent.length = produced.length + p.assignments.length

namespace Journal

variable {s t t' : Session σ} {registry : Registry} {reqs : List (Except DeployError Request)}
  {p p' : Progress} {sent : List Submission} {produced : List Resource} {x : Submission}

/-- One more confirmed submission, which left a resource or a record. -/
theorem extend {more : List Resource} {made : List Assignment}
    (h : Journal s registry reqs p t sent produced)
    (hjournal : t'.submissions = t.submissions ++ [x]) (hconfirmed : Confirmed x)
    (hresources : p'.registry.resources = p.registry.resources ++ more)
    (hassignments : p'.assignments = p.assignments ++ made) (hone : more.length + made.length = 1) :
    Journal s registry (reqs ++ [.ok x.request]) p' t' (sent ++ [x]) (produced ++ more) where
  submissions := by rw [hjournal, h.submissions, List.append_assoc]
  resources := by rw [hresources, h.resources, List.append_assoc]
  asked := by rw [List.map_append, h.asked, List.map_singleton]
  confirmed := by
    intro y hy
    rcases List.mem_append.1 hy with hy | hy
    · exact h.confirmed y hy
    · rwa [List.mem_singleton.1 hy]
  length := by
    have hlength := h.length
    rw [hassignments, List.length_append, List.length_append, List.length_append,
      List.length_singleton]
    omega

/-- A step that leaves nothing. -/
theorem quiet (h : Journal s registry reqs p t sent produced)
    (hjournal : t'.submissions = t.submissions)
    (hregistry : p'.registry = p.registry) (hassignments : p'.assignments = p.assignments) :
    Journal s registry reqs p' t' sent produced where
  submissions := hjournal.trans h.submissions
  resources := by rw [hregistry, h.resources]
  asked := h.asked
  confirmed := h.confirmed
  length := by rw [hassignments, h.length]

end Journal

section Invariant

variable (l : Ledger σ) (plan : Plan) (s : Session σ) (registry : Registry)

/-- The given components are deployed: their creations stand in the journal. -/
def DeployedSoFar (earlier : List Component) (p : Progress) (t : Session σ) : Prop :=
  ∃ sent produced,
    Journal s registry (earlier.map (creationRequest l.deployer p.registry)) p t sent produced

/-- The given steps are taken: behind all creations, their calls stand in the journal. -/
def WiredSoFar (d : Desk) (earlier : List WiringStep) (p : Progress) (t : Session σ) : Prop :=
  namingOf plan p.registry = .ok d.registry ∧ ∃ sent produced,
    Journal s registry (plan.components.map (creationRequest l.deployer p.registry) ++
      earlier.filterMap (callRequest l.deployer (.ok d.registry) p.registry)) p t sent produced

end Invariant

section Preserved

variable {l : Ledger σ} {plan : Plan} {settings : Settings} {s t t' : Session σ}
  {registry : Registry} {p : Progress}

theorem deployedSoFar_nil : DeployedSoFar l s registry [] { registry } s :=
  ⟨[], [], by simp, by simp, rfl, by simp, rfl⟩

theorem DeployedSoFar.next {earlier : List Component} {c : Component} {address : Address}
    {extended : Registry} (h : DeployedSoFar l s registry earlier p t)
    (hdeployed : Deployed l settings.confirmation.timeoutSecs c p.registry t
      (.ok (address, extended)) t') (completed : Option String) :
    DeployedSoFar l s registry (earlier ++ [c]) ⟨extended, p.assignments, completed⟩ t' := by
  obtain ⟨sent, produced, hjournal⟩ := h
  obtain ⟨x, resource, hsent, hrequest, hconfirmed, hresources⟩ := confirmed_of_deployed hdeployed
  have hnext : Journal s registry _ ⟨extended, p.assignments, completed⟩ t' _ _ :=
    hjournal.extend hsent hconfirmed hresources (List.append_nil _).symm rfl
  have hrequests : (sent ++ [x]).map (fun x => .ok x.request) =
      (earlier ++ [c]).map (creationRequest l.deployer p.registry) := by
    rw [hnext.asked, List.map_append, List.map_singleton, hrequest]
  refine ⟨_, _, { hnext with asked := map_ok_of_imp hrequests fun a b hb => ?_ }⟩
  exact creationRequest_mono hb ⟨_, hresources.symm⟩

/-- At the desk, no step is taken yet. -/
theorem DeployedSoFar.desk {d : Desk} {name : String}
    (h : DeployedSoFar l s registry plan.components p t) (hregistry : plan.registry = some name)
    (haddress : p.registry.address name = .ok d.registry) :
    WiredSoFar l plan s registry d [] p t := by
  obtain ⟨sent, produced, hjournal⟩ := h
  refine ⟨by simp [namingOf, hregistry, haddress], sent, produced, ?_⟩
  rwa [List.filterMap_nil, List.append_nil]

theorem WiredSoFar.next {d : Desk} {earlier : List WiringStep} {step : WiringStep}
    {made : Option Assignment} (h : WiredSoFar l plan s registry d earlier p t)
    (htaken : Taken l d p.registry step t (.ok made) t') (completed : Option String) :
    WiredSoFar l plan s registry d (earlier ++ [step])
      ⟨p.registry, p.assignments ++ made.toList, completed⟩ t' := by
  obtain ⟨hnaming, sent, produced, hjournal⟩ := h
  refine ⟨hnaming, ?_⟩
  rw [List.filterMap_append]
  rcases confirmed_of_taken htaken with
    ⟨rfl, hsame, hrequest⟩ | ⟨x, record, rfl, hsent, hconfirmed, hrequest⟩
  · refine ⟨sent, produced, ?_⟩
    rw [List.filterMap_cons_none hrequest, List.filterMap_nil, List.append_nil]
    exact hjournal.quiet hsame rfl (List.append_nil _)
  · refine ⟨sent ++ [x], produced ++ [], ?_⟩
    rw [List.filterMap_cons_some hrequest, List.filterMap_nil, ← List.append_assoc]
    exact hjournal.extend hsent hconfirmed (List.append_nil _).symm rfl rfl

end Preserved

/-- How the journal of a run ends: with the requests done, or with what the failed step left of its
own. -/
inductive Ended (l : Ledger σ) (plan : Plan) (s : Session σ) (registry : Registry) :
    Except Failure Report → Session σ → Prop where
  | complete {reqs : List (Except DeployError Request)} {p : Progress} {t : Session σ}
      {sent : List Submission} {produced : List Resource}
      (hjournal : Journal s registry reqs p t sent produced)
      (horder : reqs <+: requests l.deployer plan p.registry) :
      Ended l plan s registry (.ok p.report) t
  | failed {reqs : List (Except DeployError Request)} {p : Progress} {t t' : Session σ}
      {sent : List Submission} {produced : List Resource}
      {request : Option (Except DeployError Request)} {state : RunState} {e : DeployError}
      (hjournal : Journal s registry reqs p t sent produced) (hleft : Left request t t' e)
      (horder : reqs ++ request.toList <+: requests l.deployer plan p.registry) :
      Ended l plan s registry (.error (p.fail state e)) t'

theorem prefix_filterMap_cons {β : Type} (f : α → Option β) (earlier later : List α) (a : α) :
    earlier.filterMap f ++ (f a).toList <+: (earlier ++ a :: later).filterMap f := by
  refine ⟨later.filterMap f, ?_⟩
  rw [List.filterMap_append, List.append_assoc]
  cases h : f a <;> simp [h]

theorem ended_of_ran {l : Ledger σ} {plan : Plan} {settings : Settings} {s t : Session σ}
    {registry : Registry} {r : Except Failure Report}
    (h : Ran l plan settings (DeployedSoFar l s registry) (WiredSoFar l plan s registry) r t) :
    Ended l plan s registry r t := by
  cases h with
  | deployed hregistry hdeployed =>
    obtain ⟨sent, produced, hjournal⟩ := hdeployed
    exact .complete hjournal (List.prefix_append ..)
  | wired hwired =>
    obtain ⟨hnaming, sent, produced, hjournal⟩ := hwired
    exact .complete hjournal (by simp [requests, hnaming])
  | deploying hsplit hdeployed hfailed =>
    obtain ⟨sent, produced, hjournal⟩ := hdeployed
    refine .failed hjournal (left_of_deployed hfailed) ?_
    rw [requests, hsplit, List.map_append, List.map_cons, List.append_cons, List.append_assoc]
    exact List.prefix_append ..
  | @unnamed name _ _ _ hregistry haddress hdeployed =>
    obtain ⟨sent, produced, hjournal⟩ := hdeployed
    obtain ⟨-, rfl⟩ := address_eq_error haddress
    have hleft : Left none t t (.unresolvedDependency name) := .nothing rfl rfl
    exact .failed hjournal hleft (by simp [requests])
  | wiring hsplit hwired hfailed =>
    obtain ⟨hnaming, sent, produced, hjournal⟩ := hwired
    refine .failed hjournal (left_of_taken hfailed) ?_
    rw [requests, hnaming, hsplit, List.append_assoc]
    exact (List.prefix_append_right_inj _).2 (prefix_filterMap_cons _ _ _ _)

theorem ended_of_run (l : Ledger σ) (plan : Plan) (settings : Settings) (registry : Registry)
    (s : Session σ) :
    Ended l plan s registry (run l plan settings registry s).1
      (run l plan settings registry s).2 := by
  have hkept : Kept l plan settings (DeployedSoFar l s registry) (WiredSoFar l plan s registry) :=
    { deployed := fun _ h hdeployed => h.next hdeployed _
      desk := fun hregistry haddress h => h.desk hregistry haddress
      taken := fun _ h htaken => h.next htaken _ }
  exact ended_of_ran (hkept.ran deployedSoFar_nil)

end Rollout.Run
