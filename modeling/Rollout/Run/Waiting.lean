import Rollout.Run.Session

/-!
# Run/Waiting — confirmations and propagation

A submitted transaction is awaited for a bounded time (`confirm`), and a wait that ends without a
receipt keeps the transaction's hash in its error. Reads may lag behind confirmed assignments, so a
run waits for them to catch up before it relies on them (`awaitPropagation`), either by reading again
and again or by pausing for a fixed time. Where cancellation and something else happen at the same
instant, cancellation counts.
-/

namespace Rollout

inductive PropagationMode where
  /-- Read until the expected owner is seen. -/
  | poll
  /-- Pause without reading. -/
  | fixed
  deriving DecidableEq

/-- How propagation is awaited. -/
structure PropagationPolicy where
  mode : PropagationMode := .poll
  pollIntervalMs : Nat := 500
  timeoutSecs : Nat := 60
  fixedDelayMs : Nat := 6000
  deriving DecidableEq

/-- How confirmations are awaited. -/
structure ConfirmationPolicy where
  timeoutSecs : Nat := 120
  /-- The pause between two looks for a receipt, on a node. -/
  pollIntervalMs : Nat := 1000
  deriving DecidableEq

/-- An owner that reads are expected to show. -/
structure Expectation where
  registry : Address
  node : Digest
  owner : Address
  deriving DecidableEq

namespace Run

variable {σ : Type}

/-- Fails if the token has fired. Comes before every submission. -/
def ensureNotCancelled (operation : Operation) : Action σ Unit := fun s =>
  let s := s.look
  if s.token.fired then (.error (.cancelled operation none), s) else (.ok (), s)

/-- How long from now the token will fire, if it does within the next milliseconds. Nothing happens
within no time at all. -/
def firesWithin? (s : Session σ) (milliseconds : Nat) : Option Nat :=
  match s.token.alarm with
  | some instant =>
    if milliseconds ≠ 0 ∧ instant ≤ s.clock + milliseconds then some (instant - s.clock) else none
  | none => none

/-- Pauses, unless the token has fired or fires first. -/
def pause (operation : Operation) (milliseconds : Nat) : Action σ Unit := fun s =>
  let s := s.look
  if s.token.fired then (.error (.cancelled operation none), s)
  else
    match firesWithin? s milliseconds with
    | some elapsed => (.error (.cancelled operation none), s.advance elapsed)
    | none => (.ok (), s.advance milliseconds)

/-! ## Confirmations -/

/-- The outcome of a wait of at most `limit` milliseconds for a transaction, and when it came: none
if it is still unsettled then. -/
def settle? (l : Ledger σ) (transaction : Digest) (limit : Nat) (s : Session σ) :
    Option (Nat × Except LedgerError Receipt) × σ :=
  match l.await transaction limit s.ledger with
  | .settled elapsed answer state =>
    if elapsed ≤ limit then (some (elapsed, answer), state) else (none, state)
  | .unsettled state => (none, state)

/-- Waits for a transaction until it is settled, the time is up, or the token fires. An outcome that
is there at once is taken unless the token has fired already. -/
def confirm (l : Ledger σ) (transaction : Digest) (timeoutSecs : Nat) (operation : Operation) :
    Action σ Receipt := fun s =>
  let s := s.look
  if s.token.fired then (.error (.cancelled operation (some transaction)), s)
  else
    match firesWithin? s (1000 * timeoutSecs) with
    | some firing =>
      match settle? l transaction firing s with
      | (some (elapsed, answer), ledger) =>
        if elapsed = 0 ∨ elapsed < firing then
          (answer.mapError .ledger, { (s.settle answer).advance elapsed with ledger })
        else (.error (.cancelled operation (some transaction)), { s.advance firing with ledger })
      | (none, ledger) =>
        (.error (.cancelled operation (some transaction)), { s.advance firing with ledger })
    | none =>
      match settle? l transaction (1000 * timeoutSecs) s with
      | (some (elapsed, answer), ledger) =>
        (answer.mapError .ledger, { (s.settle answer).advance elapsed with ledger })
      | (none, ledger) =>
        (.error (.confirmationTimeout operation timeoutSecs (some transaction) none),
          { s.advance (1000 * timeoutSecs) with ledger })

/-! ## Propagation -/

/-- The number of pauses that fit into the time of a policy. -/
def pausesWithin (p : PropagationPolicy) : Nat :=
  if p.pollIntervalMs = 0 then 1000 * p.timeoutSecs else 1000 * p.timeoutSecs / p.pollIntervalMs

/-- Whether an answer shows the expected owner. -/
def shows (e : Expectation) : Except LedgerError Address → Bool
  | .ok owner => owner = e.owner
  | .error _ => false

/-- The last failed read after one more answer. -/
def lastFailure (previous : Option LedgerError) : Except LedgerError Address → Option LedgerError
  | .ok _ => previous
  | .error error => some error

/-- Reads, and as long as there is time for a pause until `deadline`, pauses and reads again. `left`
bounds the number of pauses, and without any left the wait pauses until the deadline; `failure` is
the last failed read so far. The clock is unbounded, while a machine's clock fails on a deadline
beyond its range. Pauses of no time do not move it, and there `left` stands in for reading again
without end. -/
def poll (l : Ledger σ) (p : PropagationPolicy) (e : Expectation) (deadline : Nat) (left : Nat)
    (failure : Option LedgerError) : Action σ Unit := fun s =>
  match s.owner l e.registry e.node with
  | (answer, s) =>
    if shows e answer then (.ok (), s)
    else
      let failure := lastFailure failure answer
      let timeout : DeployError :=
        .confirmationTimeout (.propagation e.node e.owner) p.timeoutSecs none failure
      if deadline < s.clock + p.pollIntervalMs then (.error timeout, s)
      else
        match left with
        | 0 =>
          match pause (.propagation e.node e.owner) (deadline - s.clock) s with
          | (.ok (), s) => (.error timeout, s)
          | (.error error, s) => (.error error, s)
        | left + 1 =>
          match pause (.propagation e.node e.owner) p.pollIntervalMs s with
          | (.ok (), s) => poll l p e deadline left failure s
          | (.error error, s) => (.error error, s)

/-- Waits until reads show the expected owner, or for the fixed time. -/
def awaitPropagation (l : Ledger σ) (p : PropagationPolicy) (e : Expectation) : Action σ Unit :=
  fun s =>
  match p.mode with
  | .fixed => pause (.propagation e.node e.owner) p.fixedDelayMs s
  | .poll => poll l p e (s.clock + 1000 * p.timeoutSecs) (pausesWithin p) none s

end Run

end Rollout
