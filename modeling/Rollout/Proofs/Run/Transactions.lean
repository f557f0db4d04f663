import Rollout.Proofs.Ledger.Remote
import Rollout.Proofs.Run.Requests

/-!
# Proofs/Run/Transactions — what a run sends to a node

What every operation of a ledger upholds, a run upholds (`Upheld.run`).  A ledger behind a node
upholds that the node receives one transaction for each submission in the journal that has a
message, and no others (`upheld_tallies`); as the journal of a run holds the requests of its plan,
each once and in order, so do the transactions (`sendsOnce_connection`).
-/

namespace Rollout.Run

variable {σ : Type}

/-! ## What all operations uphold -/

/-- A relation of the journal and the ledger that every operation of the ledger upholds, whatever
the journal says about settlements. -/
structure Upheld (l : Ledger σ) (R : List Submission → σ → Prop) : Prop where
  submit : ∀ {journal w} (request : Request) (late : Bool)
    (settlement : Option (Except LedgerError Receipt)), R journal w →
      R (journal ++ [⟨request, late, (l.submit request w).1, settlement⟩]) (l.submit request w).2
  await : ∀ {journal w} (transaction : Digest) (limit : Nat), R journal w →
    R journal (stateAfter (l.await transaction limit w))
  owner : ∀ {journal w} (registry : Address) (node : Digest), R journal w →
    R journal (l.owner registry node w).state

/-- The relation holds in a session. -/
def Holds (R : List Submission → σ → Prop) (s : Session σ) : Prop :=
  R s.submissions s.ledger

namespace Upheld

variable {l : Ledger σ} {R : List Submission → σ → Prop} {s s' : Session σ}

theorem reads (h : Upheld l R) {journal : List Submission} {w w' : σ} (hreads : Reads l w w')
    (hR : R journal w) : R journal w' := by
  induction hreads with
  | refl => exact hR
  | tail _ hread ih =>
    obtain ⟨registry, node, rfl⟩ := hread
    exact h.owner registry node ih

theorem quiet (h : Upheld l R) (hquiet : Quiet l s s') (hR : Holds R s) : Holds R s' := by
  rw [Holds, hquiet.submissions]
  exact h.reads hquiet.reads hR

theorem transact (h : Upheld l R) {timeoutSecs : Nat} {operation : Operation} {request : Request}
    {refusal : LedgerError → DeployError} {outcome : Except DeployError Receipt}
    (htransact : transact l timeoutSecs operation request refusal s = (outcome, s'))
    (hR : Holds R s) : Holds R s' := by
  have hsent (settlement : Option (Except LedgerError Receipt)) :=
    h.submit request false settlement hR
  rw [Holds]
  cases transacted_of_transact htransact with
  | unsent hledger hjournal =>
    rw [hledger, hjournal]
    exact hR
  | refused hsubmit hjournal =>
    rw [hjournal]
    rw [hsubmit] at hsent
    exact hsent none
  | @unanswered transaction _ _ _ hsubmit _ hledger hjournal =>
    rw [hjournal]
    rw [hsubmit] at hsent
    rcases hledger with hsame | ⟨limit, hawaited⟩
    · rw [hsame]
      exact hsent none
    · rw [hawaited]
      exact h.await transaction limit (hsent none)
  | @answered transaction _ limit _ answer _ hsubmit hawait hjournal =>
    rw [hsubmit] at hsent
    have hafter := h.await transaction limit (hsent (some answer))
    rw [hawait] at hafter
    rw [hjournal]
    exact hafter

theorem deployed (h : Upheld l R) {timeoutSecs : Nat} {c : Component} {registry : Registry}
    {r : Except DeployError (Address × Registry)}
    (hdeployed : Deployed l timeoutSecs c registry s r s') (hR : Holds R s) : Holds R s' := by
  cases hdeployed with
  | duplicate hpresent => exact hR
  | unresolved hfresh hcreation => exact hR
  | sent hfresh hcreation htransact => exact h.transact htransact hR

theorem taken (h : Upheld l R) {d : Desk} {registry : Registry} {step : WiringStep}
    {r : Except DeployError (Option Assignment)} (htaken : Taken l d registry step s r s')
    (hR : Holds R s) : Holds R s' := by
  cases htaken with
  | waited hquiet hintent => exact h.quiet hquiet hR
  | stopped hquiet hpending hcause => exact h.quiet hquiet hR
  | called hintent hquiet htransact => exact h.transact htransact (h.quiet hquiet hR)

/-- **What every operation of a ledger upholds, a run upholds.** -/
theorem run (h : Upheld l R) (plan : Plan) (settings : Settings) (start : Registry)
    (hR : Holds R s) : Holds R (run l plan settings start s).2 := by
  have hkept : Kept l plan settings (fun _ _ t => Holds R t) (fun _ _ _ t => Holds R t) :=
    { deployed := fun _ hbefore hdeployed => h.deployed hdeployed hbefore
      desk := fun _ _ hbefore => hbefore
      taken := fun _ hbefore htaken => h.taken htaken hbefore }
  have hran : Ran l plan settings (fun _ _ t => Holds R t) (fun _ _ _ t => Holds R t)
      (Run.run l plan settings start s).1 (Run.run l plan settings start s).2 := hkept.ran hR
  generalize Run.run l plan settings start s = ended at hran ⊢
  obtain ⟨outcome, t⟩ := ended
  cases hran with
  | deployed _ hdeployed => exact hdeployed
  | wired hwired => exact hwired
  | deploying _ hbefore hfailed => exact h.deployed hfailed hbefore
  | unnamed _ _ hdeployed => exact hdeployed
  | wiring _ hbefore hfailed => exact h.taken hfailed hbefore

end Upheld

/-! ## Requests -/

/-- A plan comes down to one request for each component, and one for each step that assigns
something. -/
theorem length_requests (deployer : Address) (plan : Plan) (registry : Registry) :
    (requests deployer plan registry).length =
      plan.components.length + (plan.wiring.filter assigns).length := by
  have hassigns (step : WiringStep) :
      (callRequest deployer (namingOf plan registry) registry step).isSome = assigns step := by
    rw [callRequest, Option.isSome_map]
    exact assigns_of_intent.symm
  rw [requests, List.length_append, List.length_map, List.length_filterMap_eq_countP,
    List.countP_eq_length_filter]
  simp only [hassigns]

/-- What a run submits are requests of its plan, each once and in order. -/
theorem asked_of_ended {l : Ledger σ} {plan : Plan} {s t : Session σ} {start : Registry}
    {outcome : Except Failure Report} (h : Ended l plan s start outcome t) :
    ∃ sent, t.submissions = s.submissions ++ sent ∧ sent.map (fun x => .ok x.request) <+:
      requests l.deployer plan ⟨(reportOf outcome).resources⟩ := by
  cases h with
  | complete hjournal horder => exact ⟨_, hjournal.submissions, (hjournal.onceInOrder horder).order⟩
  | failed hjournal hleft horder =>
    obtain ⟨sent, hsent, honce⟩ := hjournal.onceInOrder_of_left hleft horder
    exact ⟨sent, hsent, honce.order⟩

/-! ## Transactions -/

open Remote (Connection Message Submitted Asks Written message? transactions)

/-- Since a session, the node received one transaction for each submission that has a message. -/
def Tallies (c : Connection) (s : Session Remote.Node) (journal : List Submission)
    (n : Remote.Node) : Prop :=
  ∃ sent, journal = s.submissions ++ sent ∧
    transactions n = transactions s.ledger ++ sent.filterMap fun x => message? c x.request

theorem filterMap_concat {α β : Type} (f : α → Option β) (as : List α) (a : α) :
    (as ++ [a]).filterMap f = as.filterMap f ++ (f a).toList := by
  cases h : f a <;> simp [h]

theorem upheld_tallies (c : Connection) (s : Session Remote.Node) :
    Upheld (Remote.ledger c) (Tallies c s) where
  submit {_ n} request late settlement := by
    rintro ⟨sent, rfl, hsent⟩
    refine ⟨sent ++ [⟨request, late, _, settlement⟩], List.append_assoc .., ?_⟩
    rw [filterMap_concat, ← List.append_assoc, ← hsent]
    exact Remote.transactions_submit c request n
  await {_ n} transaction limit := by
    rintro ⟨sent, hjournal, hsent⟩
    exact ⟨sent, hjournal, (Remote.asks_await c transaction n limit).transactions.trans hsent⟩
  owner {_ n} registry node := by
    rintro ⟨sent, hjournal, hsent⟩
    exact ⟨sent, hjournal, (Remote.asks_owner c n registry node).transactions.trans hsent⟩

/-- **The transactions of a run**: the messages of the first requests of its plan, each once and in
order, and so one at most for each component and each step that assigns something. -/
structure Delivered (c : Connection) (plan : Plan) (outcome : Except Failure Report)
    (n n' : Remote.Node) (asked : List Request) : Prop where
  order : asked.map .ok <+: requests c.deployer plan ⟨(reportOf outcome).resources⟩
  transactions : transactions n' = transactions n ++ asked.filterMap (message? c)
  count : (Remote.transactions n').length ≤ (Remote.transactions n).length +
    (plan.components.length + (plan.wiring.filter assigns).length)

theorem delivered_of_ended {c : Connection} {plan : Plan} {start : Registry}
    {s t : Session Remote.Node} {outcome : Except Failure Report}
    (hended : Ended (Remote.ledger c) plan s start outcome t) (htallies : Holds (Tallies c s) t) :
    ∃ asked, Delivered c plan outcome s.ledger t.ledger asked := by
  obtain ⟨sent, hsent, horder⟩ := asked_of_ended hended
  obtain ⟨sent', hsent', htransactions⟩ := htallies
  obtain rfl : sent = sent' := List.append_cancel_left (hsent.symm.trans hsent')
  have hasked : (sent.map Submission.request).filterMap (message? c) =
      sent.filterMap fun x => message? c x.request := by
    rw [List.filterMap_map]
    rfl
  refine ⟨sent.map Submission.request, ?_, ?_, ?_⟩
  · rw [List.map_map]
    exact horder
  · rw [hasked]
    exact htransactions
  · have hlength := horder.length_le
    have hfilter := List.length_filterMap_le (fun x : Submission => message? c x.request) sent
    rw [List.length_map, length_requests] at hlength
    rw [htransactions, List.length_append]
    omega

/-- **A ledger behind a node never repeats a transaction.** -/
structure SendsOnce (c : Connection) : Prop where
  message : ∀ request m, message? c request = some m → Written c request m
  submit : ∀ request n,
    Submitted c request n (Remote.submit c request n).1 (Remote.submit c request n).2
  await : ∀ transaction limit n, Asks (Remote.receiptMessage transaction) n
    (stateAfter (Remote.await c transaction limit n))
  owner : ∀ registry node n, Asks (Remote.ownerMessage registry node) n
    (Remote.owner c registry node n).state
  chainId : ∀ n, Asks ⟨"eth_chainId", []⟩ n (Remote.chainId c n).2.2
  run : ∀ plan settings start (s : Session Remote.Node), ∃ asked,
    Delivered c plan (run (Remote.ledger c) plan settings start s).1 s.ledger
      (run (Remote.ledger c) plan settings start s).2.ledger asked

end Rollout.Run
