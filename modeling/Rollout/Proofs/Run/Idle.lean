import Rollout.Proofs.Run.Deployment

/-!
# Proofs/Run/Idle — what a run does when nothing cancels it

While nothing makes the token fire (`Idle`), looking at it does nothing and every wait lasts as long
as what it waits for.  The equations below say what each action does then; none of them speaks of
the token again.  Nor does any of them speak of the number of reads: sessions that differ in it only
stay together whatever is done in both (`Blind`).
-/

namespace Rollout.Run

variable {σ α β : Type} {l : Ledger σ} {s s' : Session σ}

/-- Nothing makes the token fire. -/
def Idle (s : Session σ) : Prop :=
  s.token = {}

namespace Idle

theorem look (h : Idle s) : s.look = s := by
  obtain ⟨ledger, clock, token, submissions, reads⟩ := s
  obtain rfl : token = {} := h
  rfl

theorem advance (h : Idle s) (milliseconds : Nat) :
    s.advance milliseconds = { s with clock := s.clock + milliseconds } := by
  obtain ⟨ledger, clock, token, submissions, reads⟩ := s
  obtain rfl : token = {} := h
  rfl

theorem submit (h : Idle s) (request : Request) :
    s.submit l request = ((l.submit request s.ledger).1,
      { s with
        ledger := (l.submit request s.ledger).2
        submissions := s.submissions ++
          [⟨request, false, (l.submit request s.ledger).1, none⟩] }) := by
  obtain ⟨ledger, clock, token, submissions, reads⟩ := s
  obtain rfl : token = {} := h
  rfl

theorem owner (h : Idle s) (registry : Address) (node : Digest) :
    s.owner l registry node = ((l.owner registry node s.ledger).answer,
      { s with
        ledger := (l.owner registry node s.ledger).state
        clock := s.clock + (l.owner registry node s.ledger).elapsed
        reads := s.reads + 1 }) := by
  obtain ⟨ledger, clock, token, submissions, reads⟩ := s
  obtain rfl : token = {} := h
  rfl

theorem fired (h : Idle s) : s.token.fired = false := by
  rw [show s.token = {} from h]

theorem firesWithin? (h : Idle s) (milliseconds : Nat) :
    Run.firesWithin? s milliseconds = none := by
  rw [Run.firesWithin?, show s.token = {} from h]

theorem ensureNotCancelled (h : Idle s) (operation : Operation) :
    Run.ensureNotCancelled operation s = (.ok (), s) := by
  rw [Run.ensureNotCancelled, h.look, h.fired]
  rfl

theorem pause (h : Idle s) (operation : Operation) (milliseconds : Nat) :
    Run.pause operation milliseconds s = (.ok (), { s with clock := s.clock + milliseconds }) := by
  rw [Run.pause, h.look, h.firesWithin?, h.advance, h.fired]
  rfl

theorem confirm (h : Idle s) (transaction : Digest) (timeoutSecs : Nat) (operation : Operation) :
    Run.confirm l transaction timeoutSecs operation s =
      match settle? l transaction (1000 * timeoutSecs) s with
      | (some (elapsed, answer), ledger) =>
        (answer.mapError .ledger,
          { s.settle answer with ledger, clock := s.clock + elapsed })
      | (none, ledger) =>
        (.error (.confirmationTimeout operation timeoutSecs (some transaction) none),
          { s with ledger, clock := s.clock + 1000 * timeoutSecs }) := by
  have hsettle : ∀ answer, Idle (s.settle answer) := fun _ => h
  rw [Run.confirm, h.look, h.firesWithin?, h.fired]
  simp only [Bool.false_eq_true, if_false]
  rcases settle? l transaction (1000 * timeoutSecs) s with ⟨_ | ⟨elapsed, answer⟩, ledger⟩
  · simp only [h.advance]
  · simp only [(hsettle answer).advance]
    rfl

end Idle

/-! ## The number of reads -/

/-- The same session, but for the number of reads. -/
def Twin (s s' : Session σ) : Prop :=
  s' = { s with reads := s'.reads }

namespace Twin

theorem refl (s : Session σ) : Twin s s := rfl

theorem read (h : Twin s s') : Twin s { s' with reads := s'.reads + 1 } := by
  rw [Twin, h]

theorem ledger (h : Twin s s') : s'.ledger = s.ledger := by
  rw [h]

theorem submissions (h : Twin s s') : s'.submissions = s.submissions := by
  rw [h]

theorem idle (h : Twin s s') (hidle : Idle s) : Idle s' := by
  rw [h]
  exact hidle

end Twin

/-- **What was read before makes no difference** to a step: it does the same in sessions that differ
in the number of reads only, and nothing makes the token fire after it either. -/
def Blind (x : Action σ α) : Prop :=
  ∀ ⦃s s' : Session σ⦄, Idle s → Twin s s' →
    Idle (x s).2 ∧ (x s').1 = (x s).1 ∧ Twin (x s).2 (x s').2

theorem Blind.idle {x : Action σ α} {r : Except DeployError α} (h : Blind x) (hidle : Idle s)
    (hx : x s = (r, s')) : Idle s' := by
  have hafter : Idle (x s).2 := (h hidle (.refl s)).1
  rwa [hx] at hafter

theorem blind_ofExcept (result : Except DeployError α) : Blind (ofExcept result : Action σ α) :=
  fun _ _ hidle htwin => ⟨hidle, rfl, htwin⟩

theorem Blind.bind {x : Action σ α} {f : α → Action σ β} (hx : Blind x) (hf : ∀ a, Blind (f a)) :
    Blind (x >>= f) := by
  intro s s' hidle htwin
  obtain ⟨hidle, hresult, htwin⟩ := hx hidle htwin
  rw [bind_apply, bind_apply]
  rcases hs : x s with ⟨e | a, t⟩ <;> rcases hs' : x s' with ⟨e' | a', t'⟩ <;>
    rw [hs, hs'] at hresult htwin <;> rw [hs] at hidle <;> cases hresult
  · exact ⟨hidle, rfl, htwin⟩
  · exact hf a hidle htwin

theorem Blind.map {x : Action σ α} (hx : Blind x) (f : α → β) : Blind (f <$> x) :=
  hx.bind fun a => blind_ofExcept (.ok (f a))

theorem blind_ensureNotCancelled (operation : Operation) :
    Blind (ensureNotCancelled operation : Action σ Unit) := by
  intro s s' hidle htwin
  rw [hidle.ensureNotCancelled, (htwin.idle hidle).ensureNotCancelled]
  exact ⟨hidle, rfl, htwin⟩

theorem blind_submit (request : Request) (refusal : LedgerError → DeployError) :
    Blind (submit l request refusal) := by
  intro s s' hidle htwin
  rw [submit, submit, hidle.submit, (htwin.idle hidle).submit, htwin.ledger]
  refine ⟨hidle, rfl, ?_⟩
  rw [htwin]
  rfl

theorem blind_confirm (transaction : Digest) (timeoutSecs : Nat) (operation : Operation) :
    Blind (confirm l transaction timeoutSecs operation) := by
  intro s s' hidle htwin
  have hsettle : settle? l transaction (1000 * timeoutSecs) s' =
      settle? l transaction (1000 * timeoutSecs) s := by rw [settle?, settle?, htwin.ledger]
  rw [hidle.confirm, (htwin.idle hidle).confirm, hsettle, htwin]
  rcases settle? l transaction (1000 * timeoutSecs) s with ⟨_ | ⟨elapsed, answer⟩, ledger⟩
  · exact ⟨hidle, rfl, rfl⟩
  · exact ⟨hidle, rfl, rfl⟩

theorem blind_transact (timeoutSecs : Nat) (operation : Operation) (request : Request)
    (refusal : LedgerError → DeployError) :
    Blind (transact l timeoutSecs operation request refusal) :=
  (blind_ensureNotCancelled operation).bind fun _ =>
    (blind_submit request refusal).bind fun transaction =>
      blind_confirm transaction timeoutSecs operation

theorem blind_pause (operation : Operation) (milliseconds : Nat) :
    Blind (pause operation milliseconds : Action σ Unit) := by
  intro s s' hidle htwin
  rw [hidle.pause, (htwin.idle hidle).pause, htwin]
  exact ⟨hidle, rfl, rfl⟩

/-- A read of an owner, made in both sessions. -/
theorem Twin.owner (hidle : Idle s) (h : Twin s s') (registry : Address) (node : Digest) :
    ∃ answer t t', s.owner l registry node = (answer, t) ∧ s'.owner l registry node = (answer, t') ∧
      Idle t ∧ Twin t t' := by
  rw [hidle.owner, (h.idle hidle).owner, h]
  exact ⟨_, _, _, rfl, rfl, hidle, rfl⟩

theorem blind_poll (p : PropagationPolicy) (e : Expectation) (deadline left : Nat)
    (failure : Option LedgerError) : Blind (poll l p e deadline left failure) := by
  induction left generalizing failure with
  | zero =>
    intro s s' hidle htwin
    obtain ⟨answer, t, t', hs, hs', hidle, htwin⟩ := htwin.owner (l := l) hidle e.registry e.node
    rw [poll, poll, hs, hs']
    dsimp only
    rw [hidle.pause, (htwin.idle hidle).pause, htwin]
    dsimp only
    split
    · exact ⟨hidle, rfl, rfl⟩
    · split
      · exact ⟨hidle, rfl, rfl⟩
      · exact ⟨hidle, rfl, rfl⟩
  | succ left ih =>
    intro s s' hidle htwin
    obtain ⟨answer, t, t', hs, hs', hidle, htwin⟩ := htwin.owner (l := l) hidle e.registry e.node
    rw [poll, poll, hs, hs']
    dsimp only
    rw [hidle.pause, (htwin.idle hidle).pause, htwin]
    dsimp only
    split
    · exact ⟨hidle, rfl, rfl⟩
    · split
      · exact ⟨hidle, rfl, rfl⟩
      · exact ih _ hidle rfl

theorem blind_awaitPropagation (p : PropagationPolicy) (e : Expectation) :
    Blind (awaitPropagation l p e) := by
  intro s s' hidle htwin
  have hclock : s'.clock = s.clock := by rw [htwin]
  rw [awaitPropagation, awaitPropagation, hclock]
  split
  · exact blind_pause _ _ hidle htwin
  · exact blind_poll _ _ _ _ _ hidle htwin

end Rollout.Run
