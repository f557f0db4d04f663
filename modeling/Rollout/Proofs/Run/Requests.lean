import Rollout.Proofs.Run.Journal

/-!
# Proofs/Run/Requests — what a run submits, and what it knows of it in the end

A run hands the requests of its plan to the ledger, each once and in order, up to where it stops.
Two theorems:

* `submissions_run`: there are as many as the run produced, or one more when it fails;
* `pending_run`: a failed run names a submitted transaction as pending exactly if the wait for it
  ended without an answer.
-/

namespace Rollout.Run

variable {σ : Type}

/-! ## Each request once and in order -/

/-- The report of a run, failed or not. -/
def reportOf : Except Failure Report → Report
  | .ok report => report
  | .error failure => failure.report

/-- The hash that a failed run names as pending. -/
def pendingOf : Except Failure Report → Option Digest
  | .ok _ => none
  | .error failure => failure.pending

/-- **What a run hands to the ledger, measured by its outcome.**  `produced` are the resources that
the run added to the registry. -/
structure OnceInOrder (l : Ledger σ) (plan : Plan) (registry : Registry)
    (outcome : Except Failure Report) (sent : List Submission) (produced : List Resource) :
    Prop where
  resources : (reportOf outcome).resources = registry.resources ++ produced
  /-- Nothing is sent twice, left out or out of order. -/
  order : sent.map (fun x => .ok x.request) <+:
    requests l.deployer plan ⟨(reportOf outcome).resources⟩
  complete : ∀ report, outcome = .ok report →
    sent.length = produced.length + report.assignments.length
  failed : ∀ failure, outcome = .error failure →
    sent.length = produced.length + failure.report.assignments.length ∨
    sent.length = produced.length + failure.report.assignments.length + 1
  /-- A pending hash is the answer to the last request. -/
  pending : ∀ transaction, pendingOf outcome = some transaction →
    sent.length = produced.length + (reportOf outcome).assignments.length + 1 ∧
    ∃ x, sent.getLast? = some x ∧ x.answer = .ok transaction

section Ended

variable {l : Ledger σ} {plan : Plan} {s t t' : Session σ} {registry : Registry}
  {reqs : List (Except DeployError Request)} {p : Progress} {sent : List Submission}
  {produced : List Resource}

theorem Journal.onceInOrder (h : Journal s registry reqs p t sent produced)
    (horder : reqs <+: requests l.deployer plan p.registry) :
    OnceInOrder l plan registry (.ok p.report) sent produced where
  resources := h.resources
  order := h.asked ▸ horder
  complete := by
    rintro _ ⟨⟩
    exact h.length
  failed := by rintro _ ⟨⟩
  pending := by rintro _ ⟨⟩

/-- The failed step adds one submission at most. -/
theorem Journal.onceInOrder_of_left {request : Option (Except DeployError Request)}
    {state : RunState} {e : DeployError} (h : Journal s registry reqs p t sent produced)
    (hleft : Left request t t' e)
    (horder : reqs ++ request.toList <+: requests l.deployer plan p.registry) :
    ∃ all, t'.submissions = s.submissions ++ all ∧
      OnceInOrder l plan registry (.error (p.fail state e)) all produced := by
  cases hleft with
  | nothing hsame hpending =>
    refine ⟨sent, hsame.trans h.submissions, h.resources, ?_, ?_, ?_, ?_⟩
    · rw [h.asked]
      exact (List.prefix_append ..).trans horder
    · rintro _ ⟨⟩
    · rintro _ ⟨⟩
      exact .inl h.length
    · intro transaction hsome
      cases hpending.symm.trans hsome
  | @submission x hlast hrequest hpending =>
    have hlength : (sent ++ [x]).length = produced.length + p.assignments.length + 1 := by
      rw [List.length_append, h.length, List.length_singleton]
    refine ⟨sent ++ [x], ?_, h.resources, ?_, ?_, ?_, ?_⟩
    · rw [hlast, h.submissions, List.append_assoc]
    · rw [List.map_append, h.asked]
      rwa [hrequest] at horder
    · rintro _ ⟨⟩
    · rintro _ ⟨⟩
      exact .inr hlength
    · intro transaction hsome
      exact ⟨hlength, x, List.getLast?_concat, answer_of_openHash (hpending.symm.trans hsome)⟩

end Ended

/-- **A run submits every request of its plan at most once, and in order.** -/
theorem submissions_run (l : Ledger σ) (plan : Plan) (settings : Settings) (registry : Registry)
    (s : Session σ) :
    ∃ sent produced, (run l plan settings registry s).2.submissions = s.submissions ++ sent ∧
      OnceInOrder l plan registry (run l plan settings registry s).1 sent produced := by
  have hended := ended_of_run l plan settings registry s
  generalize run l plan settings registry s = ended at hended ⊢
  obtain ⟨outcome, s'⟩ := ended
  cases hended with
  | complete hjournal horder => exact ⟨_, _, hjournal.submissions, hjournal.onceInOrder horder⟩
  | failed hjournal hleft horder =>
    obtain ⟨sent, hsent, honce⟩ := hjournal.onceInOrder_of_left hleft horder
    exact ⟨sent, _, hsent, honce⟩

/-! ## Unknown outcomes -/

/-- Of what was submitted, only the last can be without a receipt, and only if its step failed. -/
theorem Journal.pending_of_left {s t t' : Session σ} {registry : Registry}
    {reqs : List (Except DeployError Request)} {p : Progress} {sent : List Submission}
    {produced : List Resource} {request : Option (Except DeployError Request)} {e : DeployError}
    (h : Journal s registry reqs p t sent produced) (hleft : Left request t t' e) :
    ∃ all, t'.submissions = s.submissions ++ all ∧
      ∀ x ∈ all, ∀ transaction, x.answer = .ok transaction →
        (∀ receipt, x.settlement ≠ some (.ok receipt)) →
        (e.pending = some transaction ↔ x.settlement = none) := by
  have hearlier {x : Submission} (hmem : x ∈ sent)
      (hopen : ∀ receipt, x.settlement ≠ some (.ok receipt)) : False := by
    obtain ⟨_, receipt, -, hsettlement⟩ := h.confirmed x hmem
    exact hopen receipt hsettlement
  cases hleft with
  | nothing hsame hpending =>
    refine ⟨sent, hsame.trans h.submissions, fun x hmem transaction _ hopen => ?_⟩
    exact (hearlier hmem hopen).elim
  | @submission y hlast hrequest hpending =>
    refine ⟨sent ++ [y], ?_, fun x hmem transaction hanswer hopen => ?_⟩
    · rw [hlast, h.submissions, List.append_assoc]
    · rcases List.mem_append.1 hmem with hmem | hmem
      · exact (hearlier hmem hopen).elim
      · obtain rfl := List.mem_singleton.1 hmem
        rw [hpending]
        exact openHash_eq_some_iff hanswer

/-- **What a failed run names as pending.**  Of all transactions that were accepted and brought no
receipt, exactly those are pending whose wait ended without any answer; where the wait was answered
with an error, the error stands in the failure and the hash is dropped. -/
theorem pending_run (l : Ledger σ) (plan : Plan) (settings : Settings) (registry : Registry)
    (s : Session σ) {failure : Failure} {s' : Session σ}
    (h : run l plan settings registry s = (.error failure, s')) :
    ∃ sent, s'.submissions = s.submissions ++ sent ∧
      ∀ x ∈ sent, ∀ transaction, x.answer = .ok transaction →
        (∀ receipt, x.settlement ≠ some (.ok receipt)) →
        (failure.pending = some transaction ↔ x.settlement = none) := by
  have hended := ended_of_run l plan settings registry s
  rw [h] at hended
  generalize hr : Except.error failure = r at hended
  cases hended with
  | complete hjournal horder => cases hr
  | failed hjournal hleft horder =>
    cases hr
    exact hjournal.pending_of_left hleft

/-- A ledger that accepts every request, and then never settles it or gives up with an error. -/
def mute (error : Option LedgerError) : Ledger Unit where
  deployer := .zero 20
  submit _ w := (.ok (.zero 32), w)
  await _ _ w :=
    match error with
    | some e => .settled 7500 (.error e) w
    | none => .unsettled w
  owner _ _ w := ⟨.error (.transport ["no answer"]), 0, w⟩

def single : Plan := ⟨[{ name := "Root" }], none, []⟩

theorem pending_mute : ∃ failure s',
    run (mute none) single {} {} { ledger := () } = (.error failure, s') ∧
    failure.pending = some (.zero 32) := by
  refine ⟨_, _, rfl, ?_⟩
  obtain ⟨sent, hsent, hpending⟩ := pending_run (mute none) single {} {} { ledger := () } rfl
  rw [List.nil_append] at hsent
  subst hsent
  exact (hpending _ (List.mem_singleton_self _) _ rfl (by simp)).2 rfl

/-- Where the wait gives up, the transaction may still land, and its hash is lost. -/
theorem not_pending_mute :
    Plan.make [{ name := "Root" }] none [] = .ok single ∧ ∃ failure s' x,
      run (mute (some (.transport ["gone"]))) single {} {} { ledger := () } = (.error failure, s') ∧
      s'.submissions = [x] ∧ x.answer = .ok (.zero 32) ∧
      x.settlement = some (.error (.transport ["gone"])) ∧ failure.pending = none :=
  ⟨by cbv, _, _, _, rfl, rfl, rfl, rfl, rfl⟩

end Rollout.Run
