import Rollout.Proofs.Run.Places

/-!
# Proofs/Run/Interruption — when a wait for propagation hears its token

A wait that pauses for a fixed time looks at its token before anything else.  A wait that polls looks
at it only when it pauses, so a token that has fired does not keep it from one more read, and the
answer to that read comes first: the wait succeeds if the expected owner is shown, and it is out of
time if no pause fits in before the deadline.  Only then is it cancelled (`cutShort_await`).

The reads of a wait are told by its rounds (`Round`): each goes on to the next through a pause that
nothing interrupts, and the wait ends in one of them as it would have ended from there
(`rest_of_next`).
-/

namespace Rollout.Run

variable {σ : Type}

/-! ## Rounds -/

/-- A wait that is about to read: so many pauses are left, and this was the last failed read. -/
structure Round (σ : Type) where
  left : Nat
  failure : Option LedgerError
  session : Session σ

namespace Round

variable (l : Ledger σ) (p : PropagationPolicy) (e : Expectation) (deadline : Nat)

/-- The round in which a wait begins. -/
def first (p : PropagationPolicy) (s : Session σ) : Round σ :=
  ⟨pausesWithin p, none, s⟩

/-- What the read of a round shows. -/
def answer (r : Round σ) : Except LedgerError Address :=
  (r.session.owner l e.registry e.node).1

/-- The session when the read of a round is over. -/
def after (r : Round σ) : Session σ :=
  (r.session.owner l e.registry e.node).2

/-- What becomes of a wait from a round on. -/
def rest (r : Round σ) : Except DeployError Unit × Session σ :=
  poll l p e deadline r.left r.failure r.session

/-- A read that does not end the wait leads to the next one through a pause. -/
inductive Next : Round σ → Round σ → Prop where
  | intro {left : Nat} {failure : Option LedgerError} {s t : Session σ}
      (hshows : shows e (answer l e ⟨left + 1, failure, s⟩) = false)
      (hearly : (after l e ⟨left + 1, failure, s⟩).clock + p.pollIntervalMs ≤ deadline)
      (hpause : pause (.propagation e.node e.owner) p.pollIntervalMs
        (after l e ⟨left + 1, failure, s⟩) = (.ok (), t)) :
      Next ⟨left + 1, failure, s⟩ ⟨left, lastFailure failure (answer l e ⟨left + 1, failure, s⟩), t⟩

/-- How a wait ends with the read of a round, during or before which its token has fired. -/
def cutShort (r : Round σ) : Except DeployError Unit × Session σ :=
  if shows e (r.answer l e) then (.ok (), r.after l e)
  else if deadline < (r.after l e).clock + p.pollIntervalMs then
    (.error (.confirmationTimeout (.propagation e.node e.owner) p.timeoutSecs none
      (lastFailure r.failure (r.answer l e))), r.after l e)
  else (.error (.cancelled (.propagation e.node e.owner) none), (r.after l e).look)

variable {l p e deadline}

theorem rest_of_next {r r' : Round σ} (h : Next l p e deadline r r') :
    r.rest l p e deadline = r'.rest l p e deadline := by
  cases h with
  | @intro left failure s t hshows hearly hpause =>
    generalize hanswer : answer l e ⟨left + 1, failure, s⟩ = read at hshows ⊢
    generalize hafter : after l e ⟨left + 1, failure, s⟩ = u at hearly hpause
    have howner : s.owner l e.registry e.node = (read, u) := Prod.ext hanswer hafter
    rw [rest, poll, howner]
    simp only [hshows, Bool.false_eq_true, if_false, Nat.not_lt.2 hearly, hpause]
    rfl

theorem rest_of_reached {r r' : Round σ}
    (h : Relation.ReflTransGen (Next l p e deadline) r r') :
    r.rest l p e deadline = r'.rest l p e deadline := by
  induction h with
  | refl => rfl
  | tail _ hnext ih => rw [ih, rest_of_next hnext]

/-- A pause does not begin once the token has fired. -/
theorem pause_of_fired {s : Session σ} (hfired : s.token.fired = true) (operation : Operation)
    (milliseconds : Nat) :
    pause operation milliseconds s = (.error (.cancelled operation none), s.look) := by
  have hlook : s.look.token.fired = true := by simp [Session.look, Token.beforeLook, hfired]
  rw [pause, if_pos hlook]

/-- **A round whose token has fired is the last one.** -/
theorem rest_of_fired {r : Round σ} (hfired : (r.after l e).token.fired = true) :
    r.rest l p e deadline = r.cutShort l p e deadline := by
  obtain ⟨left, failure, s⟩ := r
  generalize hafter : after l e ⟨left, failure, s⟩ = u at hfired
  have howner : s.owner l e.registry e.node = (answer l e ⟨left, failure, s⟩, u) :=
    Prod.ext rfl hafter
  have hpause := pause_of_fired hfired (.propagation e.node e.owner)
  rw [cutShort, hafter, rest]
  cases left with
  | zero =>
    rw [poll, howner]
    simp only [hpause]
  | succ left =>
    rw [poll, howner]
    simp only [hpause]

/-- A token that has fired has fired when the next read is over. -/
theorem after_of_fired {r : Round σ} (hfired : r.session.token.fired = true) :
    (r.after l e).token.fired = true := by
  have hreach : ∀ now, (r.session.token.reach now).fired = true := by
    intro now
    rw [Token.reach]
    split
    · split
      · rfl
      · exact hfired
    · exact hfired
  simp [after, Session.owner, Session.advance, Token.afterRead, hreach]

end Round

/-! ## Waits -/

/-- **How a wait for propagation ends whose token fires.** -/
structure CutShort (l : Ledger σ) (p : PropagationPolicy) (e : Expectation) (s : Session σ) :
    Prop where
  /-- A fixed wait does not begin once the token has fired. -/
  fixed : p.mode = .fixed → s.token.fired = true →
    awaitPropagation l p e s = (.error (.cancelled (.propagation e.node e.owner) none), s.look)
  /-- A polling wait comes to its first read before it looks at the token. -/
  begun : s.token.fired = true → ((Round.first p s).after l e).token.fired = true
  /-- It ends with the first read that is over when the token has fired, by what that read shows
  and by the time that is left. -/
  polling : p.mode = .poll → ∀ r,
    Relation.ReflTransGen (Round.Next l p e (s.clock + 1000 * p.timeoutSecs)) (Round.first p s) r →
    (r.after l e).token.fired = true →
    awaitPropagation l p e s = r.cutShort l p e (s.clock + 1000 * p.timeoutSecs)

theorem cutShort_await (l : Ledger σ) (p : PropagationPolicy) (e : Expectation) (s : Session σ) :
    CutShort l p e s where
  fixed hmode hfired := by
    rw [awaitPropagation, hmode]
    exact Round.pause_of_fired hfired _ _
  begun hfired := Round.after_of_fired hfired
  polling hmode r hreached hfired := by
    have hbegins : awaitPropagation l p e s =
        (Round.first p s).rest l p e (s.clock + 1000 * p.timeoutSecs) := by
      rw [awaitPropagation, hmode]
      rfl
    rw [hbegins, Round.rest_of_reached hreached, Round.rest_of_fired hfired]

/-- An owner that the ledger never shows is awaited, and the token fires during the second read. -/
theorem cutShort_await_second :
    ∃ r, Relation.ReflTransGen
        (Round.Next granting { timeoutSecs := 1 } ⟨.zero 20, .zero 32, .ofNat 20 1⟩ 1000)
        (.first { timeoutSecs := 1 } { ledger := (), token := { readsLeft := some 2 } }) r ∧
      (r.after granting ⟨.zero 20, .zero 32, .ofNat 20 1⟩).token.fired = true ∧
      (awaitPropagation granting { timeoutSecs := 1 } ⟨.zero 20, .zero 32, .ofNat 20 1⟩
        { ledger := (), token := { readsLeft := some 2 } }).1 =
          .error (.cancelled (.propagation (.zero 32) (.ofNat 20 1)) none) := by
  obtain ⟨r, hnext, hfired, hcut⟩ : ∃ r, Round.Next granting { timeoutSecs := 1 }
      ⟨.zero 20, .zero 32, .ofNat 20 1⟩ 1000
      (.first { timeoutSecs := 1 } { ledger := (), token := { readsLeft := some 2 } }) r ∧
      (r.after granting ⟨.zero 20, .zero 32, .ofNat 20 1⟩).token.fired = true ∧
      (r.cutShort granting { timeoutSecs := 1 } ⟨.zero 20, .zero 32, .ofNat 20 1⟩ 1000).1 =
        .error (.cancelled (.propagation (.zero 32) (.ofNat 20 1)) none) :=
    ⟨_, @Round.Next.intro _ _ _ _ _ 1 none _ _ rfl (by decide) rfl, rfl, rfl⟩
  refine ⟨r, .single hnext, hfired, ?_⟩
  rw [(cutShort_await granting _ _ _).polling rfl r (.single hnext) hfired]
  exact hcut

/-- The token fires before a wait or during its only read, and the wait is not cancelled: the read
shows the expected owner, or there is no time for a pause behind it. -/
theorem not_cancelled_granting :
    (awaitPropagation granting { timeoutSecs := 0 } ⟨.zero 20, .zero 32, .zero 20⟩
      { ledger := (), token := { fired := true } }).1 = .ok () ∧
    (awaitPropagation granting { timeoutSecs := 0 } ⟨.zero 20, .zero 32, .ofNat 20 1⟩
      { ledger := (), token := { readsLeft := some 1 } }).1 =
        .error (.confirmationTimeout (.propagation (.zero 32) (.ofNat 20 1)) 0 none none) :=
  ⟨rfl, rfl⟩

end Rollout.Run
