import Rollout.Proofs.Run.Idle
import Rollout.Proofs.Run.Interruption

/-!
# Proofs/Run/Polling — how many reads and how long a wait takes

A wait that polls reads at once and then once after every pause that still ends by its deadline, so
it makes at most `N + 1` reads, where `N` pauses fit into its time.  While no read shows the expected
owner, its rounds follow one another in this order (`reached_roundAt`), and it ends in the first
round whose read does, or in the last round with the last failure of all reads (`exact_await`).

The answers of the ledger are any sequence: each read finds the ledger as the read before left it
(`ledgerAfter`).  Reads take no time, so only pauses move the clock.
-/

namespace Rollout.Run

variable {σ : Type}

/-! ## Answers in a row -/

section Answers

variable (l : Ledger σ) (e : Expectation) (s : Session σ)

/-- The ledger after so many reads of the expected node. -/
def ledgerAfter : Nat → σ
  | 0 => s.ledger
  | n + 1 => (l.owner e.registry e.node (ledgerAfter n)).state

/-- What a read answers, counted from zero. -/
def answerAt (n : Nat) : Except LedgerError Address :=
  (l.owner e.registry e.node (ledgerAfter l e s n)).answer

/-- No read takes any time. -/
def Immediate : Prop :=
  ∀ n, (l.owner e.registry e.node (ledgerAfter l e s n)).elapsed = 0

/-- The session after so many reads and pauses. -/
def polled (p : PropagationPolicy) (reads pauses : Nat) : Session σ :=
  { s with
    ledger := ledgerAfter l e s reads
    clock := s.clock + pauses * p.pollIntervalMs
    reads := s.reads + reads }

/-- The last failure among the first reads. -/
def failureBefore : Nat → Option LedgerError
  | 0 => none
  | n + 1 => lastFailure (failureBefore n) (answerAt l e s n)

end Answers

/-- **The last failure of a row of answers** up to a given one: the error of the latest that is an
error, or none if there is none. -/
inductive LastFailed (answers : Nat → Except LedgerError Address) (last : Nat) :
    Option LedgerError → Prop where
  | never (hok : ∀ i ≤ last, ∃ owner, answers i = .ok owner) : LastFailed answers last none
  | once {i : Nat} {error : LedgerError} (hi : i ≤ last) (herror : answers i = .error error)
      (hlater : ∀ j, i < j → j ≤ last → ∃ owner, answers j = .ok owner) :
      LastFailed answers last (some error)

theorem LastFailed.zero (answers : Nat → Except LedgerError Address) :
    LastFailed answers 0 (lastFailure none (answers 0)) := by
  rcases hfirst : answers 0 with error | owner
  · exact .once (Nat.le_refl 0) hfirst fun j hj hle => absurd hj (Nat.not_lt.2 hle)
  · refine .never fun i hi => ?_
    obtain rfl := Nat.le_zero.1 hi
    exact ⟨owner, hfirst⟩

theorem LastFailed.succ {answers : Nat → Except LedgerError Address} {last : Nat}
    {failure : Option LedgerError} (h : LastFailed answers last failure) :
    LastFailed answers (last + 1) (lastFailure failure (answers (last + 1))) := by
  rcases hnext : answers (last + 1) with error | owner
  · exact .once (Nat.le_refl _) hnext fun j hj hle => absurd hj (Nat.not_lt.2 hle)
  · have hok {i : Nat} (hi : i ≤ last + 1) (hearlier : i ≤ last → ∃ owner, answers i = .ok owner) :
        ∃ owner, answers i = .ok owner := by
      rcases Nat.le_succ_iff.1 hi with hi | rfl
      · exact hearlier hi
      · exact ⟨owner, hnext⟩
    rcases h with hnever | ⟨hi, herror, hlater⟩
    · exact .never fun i hi => hok hi (hnever i)
    · exact .once (Nat.le_succ_of_le hi) herror fun j hj hle => hok hle (hlater j hj)

theorem lastFailed_failureBefore (l : Ledger σ) (e : Expectation) (s : Session σ) (n : Nat) :
    LastFailed (answerAt l e s) n (failureBefore l e s (n + 1)) := by
  induction n with
  | zero => exact .zero _
  | succ n ih => exact ih.succ

theorem shows_eq_true_iff {e : Expectation} {answer : Except LedgerError Address} :
    shows e answer = true ↔ answer = .ok e.owner := by
  rcases answer with error | owner <;> simp [shows]

theorem shows_eq_false_iff {e : Expectation} {answer : Except LedgerError Address} :
    shows e answer = false ↔ answer ≠ .ok e.owner := by
  rw [← Bool.not_eq_true, shows_eq_true_iff]

/-! ## Rounds in a row -/

section Rounds

variable (l : Ledger σ) (p : PropagationPolicy) (e : Expectation) (s : Session σ)

/-- The round of a read, counted from zero. -/
def roundAt (n : Nat) : Round σ :=
  ⟨pausesWithin p - n, failureBefore l e s n, polled l e s p n n⟩

theorem first_eq_roundAt : Round.first p s = roundAt l p e s 0 := by
  simp [Round.first, roundAt, polled, failureBefore, ledgerAfter]

theorem polled_idle (hidle : Idle s) (reads pauses : Nat) : Idle (polled l e s p reads pauses) :=
  hidle

variable {l p e s}

/-- The read of a round. -/
theorem owner_polled (hidle : Idle s) (himmediate : Immediate l e s) (n : Nat) :
    (polled l e s p n n).owner l e.registry e.node =
      (answerAt l e s n, polled l e s p (n + 1) n) := by
  rw [Idle.owner (polled_idle l p e s hidle n n)]
  have hinstant : (l.owner e.registry e.node (polled l e s p n n).ledger).elapsed = 0 :=
    himmediate n
  rw [hinstant]
  rfl

theorem answer_roundAt (hidle : Idle s) (himmediate : Immediate l e s) (n : Nat) :
    (roundAt l p e s n).answer l e = answerAt l e s n :=
  congrArg Prod.fst (owner_polled hidle himmediate n)

theorem after_roundAt (hidle : Idle s) (himmediate : Immediate l e s) (n : Nat) :
    (roundAt l p e s n).after l e = polled l e s p (n + 1) n :=
  congrArg Prod.snd (owner_polled hidle himmediate n)

/-- A pause between two reads. -/
theorem pause_polled (hidle : Idle s) (n : Nat) :
    pause (.propagation e.node e.owner) p.pollIntervalMs (polled l e s p (n + 1) n) =
      (.ok (), polled l e s p (n + 1) (n + 1)) := by
  rw [Idle.pause (polled_idle l p e s hidle (n + 1) n)]
  simp [polled, Nat.succ_mul, Nat.add_assoc]

/-- A round with a pause left goes on to the next one. -/
theorem next_of_pause {deadline : Nat} {r : Round σ} {t : Session σ} (hleft : 0 < r.left)
    (hshows : shows e (r.answer l e) = false)
    (hearly : (r.after l e).clock + p.pollIntervalMs ≤ deadline)
    (hpause : pause (.propagation e.node e.owner) p.pollIntervalMs (r.after l e) = (.ok (), t)) :
    Round.Next l p e deadline r ⟨r.left - 1, lastFailure r.failure (r.answer l e), t⟩ := by
  obtain ⟨_ | left, failure, session⟩ := r
  · exact absurd hleft (Nat.lt_irrefl 0)
  · exact .intro hshows hearly hpause

/-- **A round that does not show the owner leads to the next one**, as long as a pause fits in. -/
theorem next_roundAt (hidle : Idle s) (himmediate : Immediate l e s) {n : Nat}
    (hleft : n < pausesWithin p) (hearly : (n + 1) * p.pollIntervalMs ≤ 1000 * p.timeoutSecs)
    (hother : answerAt l e s n ≠ .ok e.owner) :
    Round.Next l p e (s.clock + 1000 * p.timeoutSecs) (roundAt l p e s n)
      (roundAt l p e s (n + 1)) := by
  have hanswer := answer_roundAt (p := p) hidle himmediate n
  have hafter := after_roundAt (p := p) hidle himmediate n
  have hclock : s.clock + n * p.pollIntervalMs + p.pollIntervalMs ≤
      s.clock + 1000 * p.timeoutSecs := by
    rw [Nat.add_assoc, ← Nat.succ_mul]
    exact Nat.add_le_add_left hearly _
  have hnext := @next_of_pause _ l p e (s.clock + 1000 * p.timeoutSecs) (roundAt l p e s n)
    (polled l e s p (n + 1) (n + 1)) (Nat.sub_pos_of_lt hleft)
    (by rw [hanswer]; exact shows_eq_false_iff.2 hother) (by rw [hafter]; exact hclock)
    (by rw [hafter]; exact pause_polled hidle n)
  rw [hanswer] at hnext
  exact hnext

/-- The rounds follow one another until a read shows the owner. -/
theorem reached_roundAt (hidle : Idle s) (himmediate : Immediate l e s)
    (hinterval : 0 < p.pollIntervalMs) {n : Nat}
    (hn : n ≤ 1000 * p.timeoutSecs / p.pollIntervalMs)
    (hother : ∀ i < n, answerAt l e s i ≠ .ok e.owner) :
    Relation.ReflTransGen (Round.Next l p e (s.clock + 1000 * p.timeoutSecs))
      (Round.first p s) (roundAt l p e s n) := by
  induction n with
  | zero => rw [first_eq_roundAt l p e s]
  | succ n ih =>
    have hleft : n < pausesWithin p := by rwa [pausesWithin, if_neg (Nat.ne_of_gt hinterval)]
    have hearly : (n + 1) * p.pollIntervalMs ≤ 1000 * p.timeoutSecs :=
      (Nat.le_div_iff_mul_le hinterval).1 hn
    exact (ih (Nat.le_of_succ_le hn) fun i hi => hother i (Nat.lt_succ_of_lt hi)).tail
      (next_roundAt hidle himmediate hleft hearly (hother n (Nat.lt_succ_self n)))

/-- A round whose read shows the owner ends the wait. -/
theorem rest_of_shown (hidle : Idle s) (himmediate : Immediate l e s) {n : Nat} (deadline : Nat)
    (hshown : answerAt l e s n = .ok e.owner) :
    (roundAt l p e s n).rest l p e deadline = (.ok (), polled l e s p (n + 1) n) := by
  have hshows := shows_eq_true_iff.2 hshown
  rw [Round.rest]
  unfold poll
  simp only [roundAt, owner_polled hidle himmediate, hshows, if_true]

/-- A round behind which no pause fits in ends the wait as well. -/
theorem rest_of_late (hidle : Idle s) (himmediate : Immediate l e s) {n : Nat}
    (hlate : 1000 * p.timeoutSecs < (n + 1) * p.pollIntervalMs)
    (hother : answerAt l e s n ≠ .ok e.owner) :
    (roundAt l p e s n).rest l p e (s.clock + 1000 * p.timeoutSecs) =
      (.error (.confirmationTimeout (.propagation e.node e.owner) p.timeoutSecs none
        (failureBefore l e s (n + 1))), polled l e s p (n + 1) n) := by
  have hshows := shows_eq_false_iff.2 hother
  have hclock : s.clock + 1000 * p.timeoutSecs <
      (polled l e s p (n + 1) n).clock + p.pollIntervalMs := by
    change _ < s.clock + n * p.pollIntervalMs + p.pollIntervalMs
    rw [Nat.add_assoc, ← Nat.succ_mul]
    exact Nat.add_lt_add_left hlate _
  rw [Round.rest]
  unfold poll
  simp only [roundAt, owner_polled hidle himmediate, hshows, Bool.false_eq_true, if_false, hclock,
    if_true, failureBefore]

end Rounds

/-! ## Waits -/

/-- **How a wait that polls ends**, where `1000 * T / I` pauses fit into its time. -/
structure Exact (l : Ledger σ) (p : PropagationPolicy) (e : Expectation) (s : Session σ) : Prop where
  /-- With the first read that shows the owner, if it comes in time. -/
  shown : ∀ k ≤ 1000 * p.timeoutSecs / p.pollIntervalMs,
    answerAt l e s k = .ok e.owner → (∀ i < k, answerAt l e s i ≠ .ok e.owner) →
    awaitPropagation l p e s = (.ok (), polled l e s p (k + 1) k)
  /-- With the last read that there is time for, if none of them shows the owner. -/
  late : (∀ k ≤ 1000 * p.timeoutSecs / p.pollIntervalMs, answerAt l e s k ≠ .ok e.owner) →
    ∃ failure,
      LastFailed (answerAt l e s) (1000 * p.timeoutSecs / p.pollIntervalMs) failure ∧
      awaitPropagation l p e s =
        (.error (.confirmationTimeout (.propagation e.node e.owner) p.timeoutSecs none failure),
          polled l e s p (1000 * p.timeoutSecs / p.pollIntervalMs + 1)
            (1000 * p.timeoutSecs / p.pollIntervalMs))

/-- **A wait that polls takes exactly as many reads and pauses as it needs**, and one that is out of
time tells the last failure of its reads. -/
theorem exact_await {l : Ledger σ} {p : PropagationPolicy} {e : Expectation} {s : Session σ}
    (hmode : p.mode = .poll) (hinterval : 0 < p.pollIntervalMs) (hidle : Idle s)
    (himmediate : Immediate l e s) : Exact l p e s := by
  have hrest {n : Nat} (hn : n ≤ 1000 * p.timeoutSecs / p.pollIntervalMs)
      (hother : ∀ i < n, answerAt l e s i ≠ .ok e.owner) :
      awaitPropagation l p e s = (roundAt l p e s n).rest l p e (s.clock + 1000 * p.timeoutSecs) := by
    rw [← Round.rest_of_reached (reached_roundAt hidle himmediate hinterval hn hother),
      awaitPropagation, hmode]
    rfl
  constructor
  case shown =>
    intro k hk hshown hother
    rw [hrest hk hother, rest_of_shown hidle himmediate _ hshown]
  case late =>
    intro hother
    have hlate : 1000 * p.timeoutSecs <
        (1000 * p.timeoutSecs / p.pollIntervalMs + 1) * p.pollIntervalMs := by
      rw [Nat.succ_mul (1000 * p.timeoutSecs / p.pollIntervalMs)]
      exact Nat.lt_div_mul_add hinterval
    refine ⟨_, lastFailed_failureBefore l e s _, ?_⟩
    rw [hrest (Nat.le_refl _) fun i hi => hother i (Nat.le_of_lt hi),
      rest_of_late hidle himmediate hlate (hother _ (Nat.le_refl _))]

/-! ## Scripts -/

/-- A ledger whose reads answer one after the other, and take no time. -/
def scripted (answers : Nat → Except LedgerError Address) : Ledger Nat where
  deployer := .zero 20
  submit _ n := (.ok (.zero 32), n)
  await _ _ n := .unsettled n
  owner _ _ n := ⟨answers n, 0, n + 1⟩

theorem ledgerAfter_scripted (answers : Nat → Except LedgerError Address) (e : Expectation)
    (s : Session Nat) (n : Nat) : ledgerAfter (scripted answers) e s n = s.ledger + n := by
  induction n with
  | zero => rfl
  | succ n ih => exact congrArg (· + 1) ih

theorem answerAt_scripted (answers : Nat → Except LedgerError Address) (e : Expectation)
    (s : Session Nat) (n : Nat) : answerAt (scripted answers) e s n = answers (s.ledger + n) :=
  congrArg answers (ledgerAfter_scripted answers e s n)

/-- Reads that fail at first, then show nobody twice, and then the expected owner. -/
def wavering : Nat → Except LedgerError Address
  | 0 => .error (.transport ["owner read unavailable"])
  | 1 | 2 => .ok (.zero 20)
  | _ => .ok (.ofNat 20 1)

/-- The owner that shows in the end. -/
def sought : Expectation := ⟨.zero 20, .zero 32, .ofNat 20 1⟩

theorem lastFailed_wavering {failure : Option LedgerError} (h : LastFailed wavering 2 failure) :
    failure = some (.transport ["owner read unavailable"]) := by
  rcases h with hnever | @⟨i, error, hi, herror, -⟩
  · obtain ⟨owner, howner⟩ := hnever 0 (by decide)
    cases howner
  · match i with
    | 0 => exact congrArg some (Except.error.inj herror).symm
    | 1 | 2 => cases herror

/-- The last pause ends at the deadline, and the read behind it shows the owner; with a longer
interval there is no time for it, and the failure of the first read is told. -/
theorem exact_await_wavering :
    Immediate (scripted wavering) sought { ledger := 0 } ∧
      awaitPropagation (scripted wavering) { pollIntervalMs := 1000, timeoutSecs := 3 } sought
          { ledger := 0 } =
        (.ok (), { ledger := 4, clock := 3000, reads := 4 }) ∧
      awaitPropagation (scripted wavering) { pollIntervalMs := 1001, timeoutSecs := 3 } sought
          { ledger := 0 } =
        (.error (.confirmationTimeout (.propagation (.zero 32) (.ofNat 20 1)) 3 none
            (some (.transport ["owner read unavailable"]))),
          { ledger := 3, clock := 2002, reads := 3 }) := by
  have himmediate : Immediate (scripted wavering) sought { ledger := 0 } := fun _ => rfl
  refine ⟨himmediate, ?_, ?_⟩
  · have hexact : Exact (scripted wavering) { pollIntervalMs := 1000, timeoutSecs := 3 } sought
        { ledger := 0 } := exact_await rfl (by decide) rfl himmediate
    exact hexact.shown 3 (by decide) rfl (by decide)
  · have hexact : Exact (scripted wavering) { pollIntervalMs := 1001, timeoutSecs := 3 } sought
        { ledger := 0 } := exact_await rfl (by decide) rfl himmediate
    obtain ⟨failure, hfailed, hawait⟩ := hexact.late (by decide)
    have hanswers : answerAt (scripted wavering) sought { ledger := 0 } = wavering :=
      funext fun n => by rw [answerAt_scripted, Nat.zero_add]
    rw [hanswers] at hfailed
    rw [lastFailed_wavering hfailed] at hawait
    exact hawait

end Rollout.Run
