import Rollout.Ledger

/-!
# Run/Session — a ledger, a clock and a cancellation token

Everything a run does happens in a `Session`. Its clock only moves while something waits. Its token
may fire at any moment a run can notice: before the run starts, during a submission or a read, just
before the run looks at it, or at an instant of the clock. What is submitted, what became of it and
how often owners are read is written down, so that a run can be told by its traces.
-/

namespace Rollout

/-- A cancellation token and what will make it fire. A wait for a receipt cannot tell that the token
fires inside of the very poll that brings the receipt: that is a firing after the wait. -/
structure Token where
  fired : Bool := false
  /-- The instant of the clock at which it fires. -/
  alarm : Option Nat := none
  /-- How many submissions from now it fires. -/
  submissionsLeft : Option Nat := none
  /-- How many reads from now it fires. -/
  readsLeft : Option Nat := none
  /-- How many looks from now it fires, just before the look. -/
  looksLeft : Option Nat := none
  deriving DecidableEq

namespace Token

/-- One event less until the token fires. -/
def countDown : Option Nat → Option Nat × Bool
  | some (n + 1) => (if n = 0 then none else some n, n = 0)
  | other => (other, false)

/-- The token once the clock shows `now`. -/
def reach (t : Token) (now : Nat) : Token :=
  match t.alarm with
  | some instant => if instant ≤ now then { t with fired := true, alarm := none } else t
  | none => t

def afterSubmission (t : Token) : Token :=
  let (left, fires) := countDown t.submissionsLeft
  { t with fired := t.fired || fires, submissionsLeft := left }

def afterRead (t : Token) : Token :=
  let (left, fires) := countDown t.readsLeft
  { t with fired := t.fired || fires, readsLeft := left }

def beforeLook (t : Token) : Token :=
  let (left, fires) := countDown t.looksLeft
  { t with fired := t.fired || fires, looksLeft := left }

def cancel (t : Token) : Token :=
  { t with fired := true }

/-- Sets an alarm; the earlier of two alarms counts. -/
def cancelAt (t : Token) (instant : Nat) : Token :=
  { t with alarm := some (match t.alarm with | some other => min other instant | none => instant) }

end Token

/-- A request that was handed to the ledger. -/
structure Submission where
  request : Request
  /-- Whether the token had fired before. -/
  late : Bool
  answer : Except LedgerError Digest
  /-- What the wait for its confirmation brought, if that did not end without an answer. -/
  settlement : Option (Except LedgerError Receipt) := none

namespace Submission

def settle (answer : Except LedgerError Receipt) (x : Submission) : Submission :=
  { x with settlement := some answer }

end Submission

structure Session (σ : Type) where
  ledger : σ
  /-- Milliseconds since the session began. -/
  clock : Nat := 0
  token : Token := {}
  /-- All requests so far, in order. -/
  submissions : List Submission := []
  /-- The number of owner reads so far. -/
  reads : Nat := 0

/-- A step of a run: it changes the session, and it either fails or has a result. -/
abbrev Action (σ : Type) (α : Type) := ExceptT DeployError (StateM (Session σ)) α

namespace Session

variable {σ : Type}

/-- Lets time pass. -/
def advance (s : Session σ) (milliseconds : Nat) : Session σ :=
  let now := s.clock + milliseconds
  { s with clock := now, token := s.token.reach now }

/-- Before the run looks at the token. -/
def look (s : Session σ) : Session σ :=
  { s with token := s.token.beforeLook }

/-- Hands a request to the ledger. -/
def submit (l : Ledger σ) (request : Request) (s : Session σ) :
    Except LedgerError Digest × Session σ :=
  let (answer, ledger) := l.submit request s.ledger
  (answer,
    { s with
      ledger
      token := s.token.afterSubmission
      submissions := s.submissions ++ [⟨request, s.token.fired, answer, none⟩] })

/-- Writes down what the wait for the last submission brought. -/
def settle (s : Session σ) (answer : Except LedgerError Receipt) : Session σ :=
  { s with submissions := s.submissions.modify (s.submissions.length - 1) (Submission.settle answer) }

/-- Reads the owner of a node. -/
def owner (l : Ledger σ) (registry : Address) (node : Digest) (s : Session σ) :
    Except LedgerError Address × Session σ :=
  let read := l.owner registry node s.ledger
  let later := s.advance read.elapsed
  (read.answer, { later with ledger := read.state, token := later.token.afterRead, reads := later.reads + 1 })

end Session

end Rollout
