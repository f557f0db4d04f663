import Mathlib.Logic.Relation
import Rollout.Run.Deployment

/-!
# Proofs/Run/Waiting — what waiting can do

While a run looks at its token, pauses or reads owners, it submits nothing and misses no alarm
(`Quiet`).  The wait for a transaction ends with an answer, which the journal keeps, or with an
error that names the hash (`Awaited`).
-/

namespace Rollout.Run

variable {σ α β : Type} {l : Ledger σ} {s t s' : Session σ}

/-! ## Steps of steps -/

theorem bind_apply (x : Action σ α) (f : α → Action σ β) (s : Session σ) :
    (x >>= f) s = match x s with
      | (.ok a, t) => f a t
      | (.error e, t) => (.error e, t) := by
  change (match x s with | (a, t) => ExceptT.bindCont f a t) = _
  cases x s with
  | mk a t => cases a <;> rfl

/-- A step whose first part succeeds goes on with the second. -/
theorem bind_of_ok {x : Action σ α} {a : α} (f : α → Action σ β) (h : x s = (.ok a, t)) :
    (x >>= f) s = f a t := by
  rw [bind_apply, h]

theorem bind_of_error {x : Action σ α} {e : DeployError} (f : α → Action σ β)
    (h : x s = (.error e, t)) : (x >>= f) s = (.error e, t) := by
  rw [bind_apply, h]

theorem ofExcept_bind_of_ok {x : Except DeployError α} {a : α} (f : α → Action σ β) (h : x = .ok a)
    (s : Session σ) : (ofExcept x >>= f) s = f a s :=
  bind_of_ok f (congrArg (·, s) h)

theorem map_apply (f : α → β) (x : Action σ α) (s : Session σ) :
    (f <$> x) s = ((x s).1.map f, (x s).2) := by
  refine (bind_apply x (fun a => pure (f a)) s).trans ?_
  rcases x s with ⟨e | a, t⟩ <;> rfl

/-- A step made of two ends in the first part or in the second. -/
theorem bind_cases {x : Action σ α} {f : α → Action σ β} {r : Except DeployError β}
    (h : (x >>= f) s = (r, s')) :
    (∃ a t, x s = (.ok a, t) ∧ f a t = (r, s')) ∨ ∃ e, x s = (.error e, s') ∧ r = .error e := by
  rw [bind_apply] at h
  split at h
  · next a t hx => exact Or.inl ⟨a, t, hx, h⟩
  · next e t hx =>
    obtain ⟨rfl, rfl⟩ := Prod.mk.inj h
    exact Or.inr ⟨e, hx, rfl⟩

/-- A result that needs no session leaves it alone. -/
theorem ofExcept_bind_cases {x : Except DeployError α} {f : α → Action σ β}
    {r : Except DeployError β} (h : (ofExcept x >>= f) s = (r, s')) :
    (∃ a, x = .ok a ∧ f a s = (r, s')) ∨ ∃ e, x = .error e ∧ r = .error e ∧ s' = s := by
  rcases bind_cases h with ⟨a, t, hx, hf⟩ | ⟨e, hx, rfl⟩
  · obtain ⟨rfl, rfl⟩ : x = .ok a ∧ s = t := Prod.mk.inj hx
    exact Or.inl ⟨a, rfl, hf⟩
  · obtain ⟨rfl, rfl⟩ : x = .error e ∧ s = s' := Prod.mk.inj hx
    exact Or.inr ⟨e, rfl, rfl, rfl⟩

theorem map_cases {f : α → β} {x : Action σ α} {r : Except DeployError β}
    (h : (f <$> x) s = (r, s')) : ∃ r₀, x s = (r₀, s') ∧ r = r₀.map f := by
  rcases bind_cases (x := x) (f := fun a => pure (f a)) h with ⟨a, t, hx, hf⟩ | ⟨e, hx, rfl⟩
  · obtain ⟨rfl, rfl⟩ := Prod.mk.inj hf
    exact ⟨.ok a, hx, rfl⟩
  · exact ⟨.error e, hx, rfl⟩

/-! ## Looking, waiting and reading -/

/-- One ledger state comes from another by reads of owners. -/
def Reads (l : Ledger σ) : σ → σ → Prop :=
  Relation.ReflTransGen fun w w' => ∃ registry node, w' = (l.owner registry node w).state

/-- No alarm of the token is overdue: whatever is due has gone off. -/
def Timely (s : Session σ) : Prop :=
  ∀ instant, s.token.alarm = some instant → s.clock < instant

/-- An alarm that comes due while time passes goes off. -/
theorem timely_advance (s : Session σ) (milliseconds : Nat) : Timely (s.advance milliseconds) := by
  intro instant h
  simp only [Session.advance, Token.reach] at h ⊢
  split at h
  · next due hdue =>
    split at h
    · cases h
    · obtain rfl : due = instant := Option.some.inj (hdue.symm.trans h)
      omega
  · next hnone => cases hnone.symm.trans h

/-- Between the two sessions nothing was submitted, of the ledger owners were read at most, and no
alarm was missed. -/
structure Quiet (l : Ledger σ) (s s' : Session σ) : Prop where
  submissions : s'.submissions = s.submissions
  reads : Reads l s.ledger s'.ledger
  timely : Timely s → Timely s'

namespace Quiet

theorem refl (s : Session σ) : Quiet l s s := ⟨rfl, .refl, id⟩

theorem trans (h : Quiet l s t) (h' : Quiet l t s') : Quiet l s s' :=
  ⟨h'.submissions.trans h.submissions, h.reads.trans h'.reads, h'.timely ∘ h.timely⟩

theorem look (s : Session σ) : Quiet l s s.look := ⟨rfl, .refl, id⟩

theorem advance (s : Session σ) (milliseconds : Nat) : Quiet l s (s.advance milliseconds) :=
  ⟨rfl, .refl, fun _ => timely_advance s milliseconds⟩

theorem owner (s : Session σ) (registry : Address) (node : Digest) :
    Quiet l s (s.owner l registry node).2 :=
  ⟨rfl, .single ⟨registry, node, rfl⟩, fun _ => timely_advance s _⟩

end Quiet

/-- Whether an error is about a name of the registry: one that is taken, or one that is missing. -/
def aboutName : DeployError → Bool
  | .duplicateName _ => true
  | .unresolvedDependency _ => true
  | _ => false

/-- A step that stays quiet, and whose error names neither a transaction nor a component. -/
inductive Harmless (l : Ledger σ) (s : Session σ) : Except DeployError α → Session σ → Prop where
  | ok {a : α} {s' : Session σ} (hquiet : Quiet l s s') : Harmless l s (.ok a) s'
  | failed {e : DeployError} {s' : Session σ} (hquiet : Quiet l s s')
      (hpending : e.pending = none) (hname : aboutName e = false) : Harmless l s (.error e) s'

/-- Nothing was submitted before either. -/
theorem Harmless.after {r : Except DeployError α} (h' : Harmless l t r s') (h : Quiet l s t) :
    Harmless l s r s' := by
  cases h' with
  | ok hquiet => exact .ok (h.trans hquiet)
  | failed hquiet hpending hname => exact .failed (h.trans hquiet) hpending hname

theorem pause_harmless {operation : Operation} {milliseconds : Nat} {r : Except DeployError Unit}
    (h : pause operation milliseconds s = (r, s')) : Harmless l s r s' := by
  have hlook : Quiet l s s.look := .look s
  rw [pause] at h
  split at h
  · cases h
    exact .failed hlook rfl rfl
  · split at h <;> cases h
    · exact .failed (hlook.trans (.advance _ _)) rfl rfl
    · exact .ok (hlook.trans (.advance _ _))

/-- Polling ends at once, or pauses once and goes on. -/
theorem poll_cases {p : PropagationPolicy} {e : Expectation} {deadline left : Nat}
    {failure : Option LedgerError} {r : Except DeployError Unit}
    (h : poll l p e deadline left failure s = (r, s')) :
    Harmless l s r s' ∨ ∃ fewer failure' t, left = fewer + 1 ∧ Quiet l s t ∧
      poll l p e deadline fewer failure' t = (r, s') := by
  have hread : Quiet l s (s.owner l e.registry e.node).2 := .owner ..
  unfold poll at h
  dsimp only at h
  split at h
  · cases h
    exact .inl (.ok hread)
  · split at h
    · cases h
      exact .inl (.failed hread rfl rfl)
    · -- the last pause is for what is left of the time, all others for the interval
      split at h
      · split at h
        · next t hpause =>
          cases h
          cases pause_harmless (l := l) hpause with
          | ok hquiet => exact .inl (.failed (hread.trans hquiet) rfl rfl)
        · next error t hpause =>
          cases h
          exact .inl ((pause_harmless hpause).after hread)
      · split at h
        · next t hpause =>
          cases pause_harmless (l := l) hpause with
          | ok hquiet => exact .inr ⟨_, _, t, rfl, hread.trans hquiet, h⟩
        · next error t hpause =>
          cases h
          exact .inl ((pause_harmless hpause).after hread)

theorem poll_harmless {p : PropagationPolicy} {e : Expectation} {deadline left : Nat}
    {failure : Option LedgerError} {r : Except DeployError Unit}
    (h : poll l p e deadline left failure s = (r, s')) : Harmless l s r s' := by
  induction left generalizing failure s with
  | zero =>
    rcases poll_cases h with hended | ⟨_, _, _, hleft, -, -⟩
    · exact hended
    · cases hleft
  | succ left ih =>
    rcases poll_cases h with hended | ⟨_, _, t, hleft, hquiet, hnext⟩
    · exact hended
    · cases hleft
      exact (ih hnext).after hquiet

theorem awaitPropagation_harmless {p : PropagationPolicy} {e : Expectation}
    {r : Except DeployError Unit} (h : awaitPropagation l p e s = (r, s')) : Harmless l s r s' := by
  rw [awaitPropagation] at h
  split at h
  · exact pause_harmless h
  · exact poll_harmless h

/-! ## Confirmations -/

/-- The ledger after a wait. -/
def stateAfter : Confirmation σ → σ
  | .settled _ _ state => state
  | .unsettled state => state

/-- How a wait for a transaction ends: with an answer, which is written down, or with an error that
keeps the hash. -/
inductive Awaited (l : Ledger σ) (transaction : Digest) (timeoutSecs : Nat) (operation : Operation)
    (s : Session σ) : Except DeployError Receipt → Session σ → Prop where
  | answered {limit elapsed : Nat} {answer : Except LedgerError Receipt} {s' : Session σ}
      (hawait : l.await transaction limit s.ledger = .settled elapsed answer s'.ledger)
      (hjournal : s'.submissions = (s.settle answer).submissions) :
      Awaited l transaction timeoutSecs operation s (answer.mapError .ledger) s'
  | unanswered {error : DeployError} {s' : Session σ}
      (herror : error = .cancelled operation (some transaction) ∨
        error = .confirmationTimeout operation timeoutSecs (some transaction) none)
      (hledger : s'.ledger = s.ledger ∨
        ∃ limit, s'.ledger = stateAfter (l.await transaction limit s.ledger))
      (hjournal : s'.submissions = s.submissions) :
      Awaited l transaction timeoutSecs operation s (.error error) s'

theorem settle?_eq_some {transaction : Digest} {limit elapsed : Nat}
    {answer : Except LedgerError Receipt} {state : σ}
    (h : settle? l transaction limit s = (some (elapsed, answer), state)) :
    l.await transaction limit s.ledger = .settled elapsed answer state := by
  rw [settle?] at h
  split at h
  · next hawait =>
    split at h
    · simp only [Prod.mk.injEq, Option.some.injEq] at h
      obtain ⟨⟨rfl, rfl⟩, rfl⟩ := h
      exact hawait
    · simp at h
  · simp at h

theorem settle?_state (l : Ledger σ) (transaction : Digest) (limit : Nat) (s : Session σ) :
    (settle? l transaction limit s).2 = stateAfter (l.await transaction limit s.ledger) := by
  rw [settle?]
  split
  · next hawait => split <;> simp [hawait, stateAfter]
  · next hawait => simp [hawait, stateAfter]

theorem awaited_of_confirm {transaction : Digest} {timeoutSecs : Nat} {operation : Operation}
    {r : Except DeployError Receipt}
    (h : confirm l transaction timeoutSecs operation s = (r, s')) :
    Awaited l transaction timeoutSecs operation s r s' := by
  rw [confirm] at h
  dsimp only at h
  split at h
  · obtain ⟨rfl, rfl⟩ := Prod.mk.inj h
    exact .unanswered (.inl rfl) (.inl rfl) rfl
  · split at h
    · next firing _ =>
      have hstate := settle?_state l transaction firing s.look
      split at h
      · next elapsed answer state hsettle =>
        rw [hsettle] at hstate
        split at h <;> obtain ⟨rfl, rfl⟩ := Prod.mk.inj h
        · exact .answered (settle?_eq_some hsettle) rfl
        · exact .unanswered (.inl rfl) (.inr ⟨firing, hstate⟩) rfl
      · next state hsettle =>
        rw [hsettle] at hstate
        obtain ⟨rfl, rfl⟩ := Prod.mk.inj h
        exact .unanswered (.inl rfl) (.inr ⟨firing, hstate⟩) rfl
    · have hstate := settle?_state l transaction (1000 * timeoutSecs) s.look
      split at h
      · next elapsed answer state hsettle =>
        obtain ⟨rfl, rfl⟩ := Prod.mk.inj h
        exact .answered (settle?_eq_some hsettle) rfl
      · next state hsettle =>
        rw [hsettle] at hstate
        obtain ⟨rfl, rfl⟩ := Prod.mk.inj h
        exact .unanswered (.inr rfl) (.inr ⟨1000 * timeoutSecs, hstate⟩) rfl

end Rollout.Run
