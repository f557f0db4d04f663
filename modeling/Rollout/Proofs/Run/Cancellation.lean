import Rollout.Proofs.Run.Cut
import Rollout.Proofs.Run.Requests

/-!
# Proofs/Run/Cancellation — what a run does once its token has fired

A run looks at the token right before every submission, and every wait ends when the token fires.
So nothing is submitted once it has fired (`Prompt`), and a transaction that is under way at that
moment is given up with its hash.  `cancelled_run` says so of a whole run, whenever the token fires.

The moments of a run are told by its cuts: where the run up to a step ends, the step begins, and the
wait for its transaction is over where the run through the step ends.
-/

namespace Rollout.Run

variable {σ : Type}

/-! ## Alarms -/

section Alarms

variable {l : Ledger σ} {transaction : Digest} {timeoutSecs limit : Nat} {operation : Operation}
  {s s' : Session σ} {r : Except DeployError Receipt}

/-- The token does not fire while time passes, unless its alarm comes due. -/
theorem fired_advance (hfired : s.token.fired = false) {elapsed : Nat}
    (halarm : ∀ instant, s.token.alarm = some instant → s.clock + elapsed < instant) :
    (s.advance elapsed).token.fired = false := by
  cases hdue : s.token.alarm with
  | none => simpa [Session.advance, Token.reach, hdue] using hfired
  | some instant =>
    have hlater : ¬ instant ≤ s.clock + elapsed := Nat.not_le_of_lt (halarm instant hdue)
    simpa [Session.advance, Token.reach, hdue, hlater] using hfired

theorem firing_of_firesWithin {firing instant : Nat} (h : firesWithin? s limit = some firing)
    (halarm : s.token.alarm = some instant) : firing = instant - s.clock := by
  simp only [firesWithin?, halarm] at h
  split at h
  · exact (Option.some.inj h).symm
  · cases h

/-- No alarm comes due in a wait that none ends.  A wait that takes no time ends before an alarm
that is due already. -/
theorem later_of_firesWithin (h : firesWithin? s limit = none) (hlimit : Timely s ∨ limit ≠ 0) :
    ∀ instant, s.token.alarm = some instant → s.clock + limit < instant := by
  intro instant halarm
  simp only [firesWithin?, halarm] at h
  split at h
  · cases h
  · next hnone =>
    rcases Nat.eq_zero_or_pos limit with rfl | hpos
    · exact (hlimit.resolve_right (fun hne => hne rfl)) instant halarm
    · omega

theorem elapsed_le_of_settle? {elapsed : Nat} {answer : Except LedgerError Receipt} {state : σ}
    (h : settle? l transaction limit s = (some (elapsed, answer), state)) : elapsed ≤ limit := by
  rw [settle?] at h
  split at h
  · split at h <;> cases h
    assumption
  · cases h

theorem timely_of_confirm (h : confirm l transaction timeoutSecs operation s = (r, s'))
    (htimely : Timely s) : Timely s' := by
  rw [confirm] at h
  dsimp only at h
  split at h
  · cases h
    exact htimely
  · split at h
    · split at h
      · split at h <;> cases h <;> exact timely_advance _ _
      · cases h
        exact timely_advance _ _
    · split at h <;> cases h <;> exact timely_advance _ _

/-- **A wait that is not cancelled ends before the token fires.**  Unless the wait is over at once:
that it can be before an alarm that is due already. -/
theorem unfired_of_confirm (h : confirm l transaction timeoutSecs operation s = (r, s'))
    (hr : r ≠ .error (.cancelled operation (some transaction)))
    (hwait : Timely s ∨ timeoutSecs ≠ 0 ∧ ∀ answer : Except LedgerError Receipt,
      r ≠ answer.mapError .ledger) : s'.token.fired = false := by
  rw [confirm] at h
  dsimp only at h
  split at h
  · cases h
    exact absurd rfl hr
  · next hlook =>
    have hunfired : s.look.token.fired = false := by simpa using hlook
    split at h
    · next firing hfiring =>
      split at h
      · next elapsed answer _ hsettle =>
        split at h <;> cases h
        · next hearly =>
          have htimely : Timely s := hwait.resolve_right fun hanswer => hanswer.2 answer rfl
          refine fired_advance hunfired fun instant halarm => ?_
          have hinstant := firing_of_firesWithin hfiring halarm
          have hlater : s.look.clock < instant := htimely instant halarm
          omega
        · exact absurd rfl hr
      · cases h
        exact absurd rfl hr
    · next hnever =>
      split at h <;> cases h
      · next elapsed answer _ hsettle =>
        have htimely : Timely s := hwait.resolve_right fun hanswer => hanswer.2 answer rfl
        have helapsed := elapsed_le_of_settle? hsettle
        refine fired_advance hunfired fun instant halarm => ?_
        have hlater := later_of_firesWithin hnever (.inl htimely) instant halarm
        omega
      · refine fired_advance hunfired (later_of_firesWithin hnever (hwait.imp id fun hne => ?_))
        have hseconds := hne.1
        omega

end Alarms

/-! ## Prompt steps -/

/-- Between the two sessions nothing was submitted after the token had fired, and no alarm was
missed. -/
structure Prompt (s s' : Session σ) : Prop where
  sends : Sends (fun x => x.late = false) s s'
  timely : Timely s → Timely s'

section Prompt

variable {l : Ledger σ} {timeoutSecs : Nat} {operation : Operation} {request : Request}
  {refusal : LedgerError → DeployError} {s t s' : Session σ} {outcome : Except DeployError Receipt}

theorem Prompt.refl (s : Session σ) : Prompt s s :=
  ⟨.of_same rfl, id⟩

theorem Prompt.trans (h : Prompt s t) (h' : Prompt t s') : Prompt s s' :=
  ⟨h.sends.trans h'.sends, h'.timely ∘ h.timely⟩

theorem Quiet.prompt (h : Quiet l s s') : Prompt s s' :=
  ⟨.of_same h.submissions, h.timely⟩

theorem timely_submit (h : Timely s) : Timely (s.submit l request).2 := by
  intro instant halarm
  exact h instant (by simpa [Session.submit, Token.afterSubmission] using halarm)

/-- A transaction ends at the look at the token, with the submission, or with the wait. -/
theorem transact_cases (h : transact l timeoutSecs operation request refusal s = (outcome, s')) :
    (outcome = .error (.cancelled operation none) ∧ s' = s.look) ∨
    (∃ error, (s.look.submit l request).1 = .error error ∧ s' = (s.look.submit l request).2) ∨
    ∃ transaction, (s.look.submit l request).1 = .ok transaction ∧
      confirm l transaction timeoutSecs operation (s.look.submit l request).2 = (outcome, s') := by
  rcases bind_cases h with ⟨_, t, hlook, h⟩ | ⟨e, hlook, rfl⟩
  · obtain ⟨rfl, -⟩ := ensureNotCancelled_cases hlook
    rcases bind_cases h with ⟨transaction, u, hsubmit, hconfirm⟩ | ⟨e, hsubmit, rfl⟩
    · have hanswer : (s.look.submit l request).1.mapError refusal = .ok transaction :=
        congrArg Prod.fst hsubmit
      obtain rfl : (s.look.submit l request).2 = u := congrArg Prod.snd hsubmit
      exact .inr (.inr ⟨transaction, mapError_eq_ok hanswer, hconfirm⟩)
    · have hanswer : (s.look.submit l request).1.mapError refusal = .error e :=
        congrArg Prod.fst hsubmit
      obtain rfl : (s.look.submit l request).2 = s' := congrArg Prod.snd hsubmit
      obtain ⟨error, hrefused, -⟩ := mapError_eq_error hanswer
      exact .inr (.inl ⟨error, hrefused, rfl⟩)
  · obtain ⟨rfl, hcancelled | ⟨-, hok⟩⟩ := ensureNotCancelled_cases hlook
    · cases hcancelled
      exact .inl ⟨rfl, rfl⟩
    · cases hok

theorem timely_of_transact (h : transact l timeoutSecs operation request refusal s = (outcome, s'))
    (htimely : Timely s) : Timely s' := by
  have hsubmitted : Timely (s.look.submit l request).2 := timely_submit htimely
  rcases transact_cases h with ⟨-, rfl⟩ | ⟨_, -, rfl⟩ | ⟨transaction, -, hconfirm⟩
  · exact htimely
  · exact hsubmitted
  · exact timely_of_confirm hconfirm hsubmitted

theorem prompt_of_transact (h : transact l timeoutSecs operation request refusal s = (outcome, s')) :
    Prompt s s' where
  sends := by
    cases transacted_of_transact h with
    | unsent hledger hjournal => exact .of_same hjournal
    | refused hsubmit hjournal => exact .of_one hjournal rfl
    | unanswered hsubmit herror hledger hjournal => exact .of_one hjournal rfl
    | answered hsubmit hawait hjournal => exact .of_one hjournal rfl
  timely := timely_of_transact h

theorem prompt_of_deployed {c : Component} {registry : Registry}
    {r : Except DeployError (Address × Registry)}
    (h : Deployed l timeoutSecs c registry s r s') : Prompt s s' := by
  cases h with
  | duplicate hpresent => exact .refl s
  | unresolved hfresh hcreation => exact .refl s
  | sent hfresh hcreation htransact => exact prompt_of_transact htransact

theorem prompt_of_taken {d : Desk} {registry : Registry} {step : WiringStep}
    {r : Except DeployError (Option Assignment)}
    (h : Taken l d registry step s r s') : Prompt s s' := by
  cases h with
  | waited hquiet hintent => exact hquiet.prompt
  | stopped hquiet hpending hcause => exact hquiet.prompt
  | called hintent hquiet htransact => exact hquiet.prompt.trans (prompt_of_transact htransact)

end Prompt

theorem prompt_of_run (l : Ledger σ) (plan : Plan) (settings : Settings) (start : Registry)
    (s : Session σ) : Prompt s (run l plan settings start s).2 := by
  have hkept : Kept l plan settings (fun _ _ t => Prompt s t) (fun _ _ _ t => Prompt s t) :=
    { deployed := fun _ h hdeployed => h.trans (prompt_of_deployed hdeployed)
      desk := fun _ _ h => h
      taken := fun _ h htaken => h.trans (prompt_of_taken htaken) }
  have hran : Ran l plan settings (fun _ _ t => Prompt s t) (fun _ _ _ t => Prompt s t)
      (run l plan settings start s).1 (run l plan settings start s).2 := hkept.ran (.refl s)
  generalize run l plan settings start s = ended at hran ⊢
  obtain ⟨outcome, t⟩ := ended
  cases hran with
  | deployed hregistry hdeployed => exact hdeployed
  | wired hwired => exact hwired
  | deploying hsplit hdeployed hfailed => exact hdeployed.trans (prompt_of_deployed hfailed)
  | unnamed hregistry haddress hdeployed => exact hdeployed
  | wiring hsplit hwired hfailed => exact hwired.trans (prompt_of_taken hfailed)

/-! ## Interrupted steps -/

/-- The step between the two sessions submits `x`, which is accepted as `transaction`, and by the
end of the wait for it the token has fired. -/
structure Interrupted (s s' : Session σ) (x : Submission) (transaction : Digest) : Prop where
  submitted : s'.submissions = s.submissions ++ [x]
  accepted : x.answer = .ok transaction
  fired : s'.token.fired = true

section Interrupted

variable {l : Ledger σ} {timeoutSecs : Nat} {operation : Operation} {request : Request}
  {refusal : LedgerError → DeployError} {s t s' : Session σ} {x : Submission} {transaction : Digest}

/-- A step that submits nothing is not interrupted. -/
theorem Interrupted.not_same (h : Interrupted s s' x transaction)
    (hsame : s'.submissions = s.submissions) : False := by
  simpa using h.submitted.symm.trans hsame

theorem Interrupted.after (h : Interrupted s s' x transaction)
    (hsame : t.submissions = s.submissions) : Interrupted t s' x transaction :=
  ⟨hsame ▸ h.submitted, h.accepted, h.fired⟩

theorem Interrupted.eq (h : Interrupted s s' x transaction) {y : Submission}
    (hjournal : s'.submissions = s.submissions ++ [y]) : y = x :=
  List.singleton_inj.1 (List.append_cancel_left (hjournal.symm.trans h.submitted))

section Wait

variable {outcome : Except DeployError Receipt} {answer : Except LedgerError Receipt}

/-- An accepted request whose wait is not cancelled is settled, or given up, before the token
fires. -/
theorem unfired_of_transact (h : transact l timeoutSecs operation request refusal s = (outcome, s'))
    (haccepted : (l.submit request s.ledger).1 = .ok transaction)
    (hr : ∀ hash, outcome ≠ .error (.cancelled operation hash))
    (hwait : Timely s ∨ timeoutSecs ≠ 0 ∧ ∀ answer : Except LedgerError Receipt,
      outcome ≠ answer.mapError .ledger) : s'.token.fired = false := by
  rcases transact_cases h with ⟨hcancelled, -⟩ | ⟨error, hrefused, -⟩ | ⟨accepted, -, hconfirm⟩
  · exact absurd hcancelled (hr none)
  · cases haccepted.symm.trans hrefused
  · exact unfired_of_confirm hconfirm (hr _) (hwait.imp timely_submit id)

theorem ne_mapError_ledger {error : DeployError} (h : ∀ e, error ≠ .ledger e) :
    .error error ≠ answer.mapError DeployError.ledger := by
  intro hanswer
  obtain ⟨e, -, hledger⟩ := mapError_eq_error hanswer.symm
  exact h e hledger.symm

theorem unfired_of_answer
    (h : transact l timeoutSecs operation request refusal s = (answer.mapError .ledger, s'))
    (haccepted : (l.submit request s.ledger).1 = .ok transaction) (htimely : Timely s) :
    s'.token.fired = false :=
  unfired_of_transact h haccepted (fun _ => (ne_mapError_ledger (by simp)).symm) (.inl htimely)

theorem unfired_of_timeout
    (h : transact l timeoutSecs operation request refusal s =
      (.error (.confirmationTimeout operation timeoutSecs (some transaction) none), s'))
    (haccepted : (l.submit request s.ledger).1 = .ok transaction)
    (hwait : Timely s ∨ timeoutSecs ≠ 0) : s'.token.fired = false :=
  unfired_of_transact h haccepted (by simp)
    (hwait.imp id fun hne => ⟨hne, fun _ => ne_mapError_ledger (by simp)⟩)

/-- **A transaction that is under way when the token fires is given up with its hash.** -/
theorem cancelled_of_transact (h : transact l timeoutSecs operation request refusal s = (outcome, s'))
    (hstep : Interrupted s s' x transaction)
    (hwait : Timely s ∨ timeoutSecs ≠ 0 ∧ x.settlement = none) :
    outcome = .error (.cancelled operation (some transaction)) := by
  cases transacted_of_transact h with
  | unsent hledger hjournal => exact (hstep.not_same hjournal).elim
  | refused hsubmit hjournal =>
    obtain rfl := hstep.eq hjournal
    cases hstep.accepted
  | unanswered hsubmit herror hledger hjournal =>
    obtain rfl := hstep.eq hjournal
    obtain rfl := Except.ok.inj hstep.accepted
    rcases herror with rfl | rfl
    · rfl
    · have hunfired := unfired_of_timeout h (congrArg Prod.fst hsubmit) (hwait.imp id And.left)
      cases hunfired.symm.trans hstep.fired
  | answered hsubmit hawait hjournal =>
    obtain rfl := hstep.eq hjournal
    have htimely : Timely s := hwait.resolve_right (by simp)
    have hunfired := unfired_of_answer h (congrArg Prod.fst hsubmit) htimely
    cases hunfired.symm.trans hstep.fired

end Wait

theorem cancelled_of_deployed {c : Component} {registry : Registry}
    {r : Except DeployError (Address × Registry)} (h : Deployed l timeoutSecs c registry s r s')
    (hstep : Interrupted s s' x transaction)
    (hwait : Timely s ∨ timeoutSecs ≠ 0 ∧ x.settlement = none) :
    r = .error (.cancelled (.creation c.name) (some transaction)) := by
  cases h with
  | duplicate hpresent => exact (hstep.not_same rfl).elim
  | unresolved hfresh hcreation => exact (hstep.not_same rfl).elim
  | sent hfresh hcreation htransact =>
    rw [cancelled_of_transact htransact hstep hwait]
    rfl

theorem cancelled_of_taken {d : Desk} {registry : Registry} {step : WiringStep}
    {r : Except DeployError (Option Assignment)} (h : Taken l d registry step s r s')
    (hstep : Interrupted s s' x transaction)
    (hwait : Timely s ∨ d.timeoutSecs ≠ 0 ∧ x.settlement = none) :
    ∃ operation, r = .error (.cancelled operation (some transaction)) := by
  cases h with
  | waited hquiet hintent => exact (hstep.not_same hquiet.submissions).elim
  | stopped hquiet hpending hcause => exact (hstep.not_same hquiet.submissions).elim
  | @called i t _ _ hintent hquiet htransact =>
    have hcancelled := cancelled_of_transact htransact (hstep.after hquiet.submissions)
      (hwait.imp hquiet.timely id)
    exact ⟨.call i.call, by rw [hcancelled]; rfl⟩

/-- The run stops in the step that is interrupted. -/
theorem cancelled_of_stepped {settings : Settings} {report : Report} {state : RunState}
    {r : Except Failure Report} (h : Stepped l settings report s state r s')
    (hstep : Interrupted s s' x transaction)
    (hwait : Timely s ∨ settings.confirmation.timeoutSecs ≠ 0 ∧ x.settlement = none) :
    ∃ operation last, r = .error ⟨.cancelled operation (some transaction), state, last,
      ⟨.failed, report.resources, report.assignments⟩⟩ := by
  cases h with
  | nothing => exact (hstep.not_same rfl).elim
  | @deploying index c p outcome _ hreport hnext =>
    subst hreport
    rcases deployNext_cases hnext with ⟨address, registry, rfl, hdeployed⟩ | ⟨e, rfl, hdeployed⟩
    · cases cancelled_of_deployed hdeployed hstep hwait
    · cases cancelled_of_deployed hdeployed hstep hwait
      exact ⟨_, _, rfl⟩
  | @wiring index naming step p outcome _ hreport hnext =>
    subst hreport
    rcases wireNext_cases hnext with ⟨made, rfl, htaken⟩ | ⟨e, rfl, htaken⟩
    · obtain ⟨operation, hcancelled⟩ := cancelled_of_taken htaken hstep hwait
      cases hcancelled
    · obtain ⟨operation, hcancelled⟩ := cancelled_of_taken htaken hstep hwait
      cases hcancelled
      exact ⟨operation, _, rfl⟩

end Interrupted

/-- **A run heeds its token.** -/
structure Heeds (l : Ledger σ) (plan : Plan) (settings : Settings) (start : Registry)
    (s : Session σ) : Prop where
  /-- Nothing is submitted once the token has fired. -/
  prompt : Prompt s (run l plan settings start s).2
  /-- Let the run up to a step end with `report` in `t`, and let the step be interrupted, so that
  the wait for its transaction is over in `t'`.  Then this is where the whole run ends: with the
  transaction as pending, and the results of the steps before. -/
  interrupted : ∀ state {report t r t' x transaction},
    run l (plan.before state) settings start s = (.ok report, t) →
    run l (plan.before state.next) settings start s = (r, t') →
    Interrupted t t' x transaction →
    -- only an alarm that was due when the run began can go off behind a wait that is over at once
    (Timely s ∨ settings.confirmation.timeoutSecs ≠ 0 ∧ x.settlement = none) →
    ∃ failure operation, run l plan settings start s = (.error failure, t') ∧
      failure.error = .cancelled operation (some transaction) ∧
      failure.pending = some transaction ∧ failure.failedStep = state ∧
      failure.report = ⟨.failed, report.resources, report.assignments⟩

/-- **Whenever the token fires, a run heeds it.** -/
theorem cancelled_run (l : Ledger σ) (plan : Plan) (settings : Settings) (start : Registry)
    (s : Session σ) : Heeds l plan settings start s where
  prompt := prompt_of_run l plan settings start s
  interrupted := by
    intro state report t r t' x transaction hbefore hnext hstep hwait
    have htimely : Timely s → Timely t := by
      have hprompt := prompt_of_run l (plan.before state) settings start s
      rw [hbefore] at hprompt
      exact hprompt.timely
    obtain ⟨operation, last, rfl⟩ :=
      cancelled_of_stepped (stepped_of_run hbefore hnext) hstep (hwait.imp htimely id)
    exact ⟨_, operation, run_of_cut hnext, rfl, rfl, rfl, rfl⟩

/-- An alarm goes off while a ledger never settles the creation of a component. -/
theorem cancelled_run_single : ∃ failure s',
    run (mute none) single {} {} { ledger := (), token := { alarm := some 5000 } } =
      (.error failure, s') ∧ failure.pending = some (.zero 32) := by
  have hheeds := cancelled_run (mute none) single {} {}
    { ledger := (), token := { alarm := some 5000 } }
  obtain ⟨failure, operation, hrun, -, hpending, -, -⟩ :=
    hheeds.interrupted (.deploying 0) rfl rfl ⟨rfl, rfl, rfl⟩ (.inr ⟨by decide, rfl⟩)
  exact ⟨failure, _, hrun, hpending⟩

end Rollout.Run
