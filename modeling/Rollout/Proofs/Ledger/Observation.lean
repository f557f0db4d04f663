import Rollout.Proofs.Ledger.History

/-!
# Proofs/Ledger/Observation — reads leave no trace

Reads use up stale owners, which share the state with the real ones, and faults of reads can be set
at any time.  None of that is seen by anything but reads: from every history one can leave out all
events that only concern observation (`Event.observes`), and each submission and each wait is
answered as before, with the same holdings at every point (`undisturbed_play`).

A world without stale owners, lag and unreadable owners (`World.settled`) stands for all worlds that
differ in these alone.  Events that observe do not change it (`settled_of_observes`), and all others
do to it what they do to the world itself (`settled_step`).
-/

namespace Rollout.Simulated

/-- Events that concern reads only. -/
def Event.observes : Event → Bool
  | .read .. | .set .blind | .set (.lag _) => true
  | .submit _ | .await .. | .set (.fail _) | .set (.refuse _) | .set .stall => false

/-- The events of a history that do not only concern reads. -/
def acting (history : List Event) : List Event :=
  history.filter (!·.observes)

/-- What is told to whoever submits a request, with the receipt that is kept for it, or waits. -/
inductive Answer where
  | submitted (answer : Except LedgerError Digest) (receipt? : Option Receipt)
  | settled (elapsed : Nat) (answer : Except LedgerError Receipt)
  | unsettled

/-- The outcome of a wait. -/
def Answer.ofConfirmation : Confirmation World → Answer
  | .settled elapsed answer _ => .settled elapsed answer
  | .unsettled _ => .unsettled

namespace World

/-- The receipt that a world keeps for an accepted request. -/
def receiptOf? (w : World) : Except LedgerError Digest → Option Receipt
  | .ok transaction => w.state.receipts.get? transaction
  | .error _ => none

/-- The answer to a submission or a wait. -/
def answer? (deployer : Address) (w : World) : Event → Option Answer
  | .submit request =>
    let (answer, w') := submit deployer request w
    some (.submitted answer (w'.receiptOf? answer))
  | .await transaction limit => some (.ofConfirmation (await transaction limit w))
  | .read .. | .set _ => none

/-- The answers that a client gets in the course of a history, reads apart. -/
def answers (deployer : Address) : World → List Event → List Answer
  | _, [] => []
  | w, e :: later => (w.answer? deployer e).toList ++ answers deployer (w.step deployer e) later

end World

/-! ## Worlds without a trace of reads -/

def State.settled (s : State) : State :=
  { s with stale := {} }

def World.settled (w : World) : World :=
  { state := w.state.settled, faults := { w.faults with lag := 0, unreadable := false } }

variable (s : State) (deployer target : Address) (w : World)

@[simp] theorem settled_empty : World.settled {} = {} := rfl

@[simp] theorem settled_holdings : s.settled.holdings = s.holdings := rfl

theorem settled_apply (call : Call) : (s.apply target call).settled = s.settled.apply target call := by
  cases call <;> rfl

/-- Whether a call reverts is decided by the holdings alone. -/
theorem execute_eq_map (call : Call) :
    s.execute deployer target call =
      (s.holdings.execute deployer target call).map fun _ => s.apply target call := by
  have hholdings := execute_holdings s deployer target call
  cases hexecute : s.execute deployer target call with
  | error revert =>
    rw [hholdings, hexecute]
    rfl
  | ok changed =>
    have hchanged := apply_of_execute hexecute
    rw [hholdings, hexecute, hchanged]
    rfl

theorem execute_settled (call : Call) :
    s.settled.execute deployer target call = (s.execute deployer target call).map State.settled := by
  rw [execute_eq_map s, execute_eq_map s.settled, settled_holdings, ← settled_apply]
  cases s.holdings.execute deployer target call <;> rfl

theorem settled_delay (lag : Nat) (change : Option ((Address × Node) × Address)) :
    (s.delay lag change).settled = s.settled := by
  cases change with
  | none => rfl
  | some entry =>
    rw [State.delay]
    split <;> rfl

theorem delay_zero (change : Option ((Address × Node) × Address)) : s.delay 0 change = s := by
  cases change <;> rfl

theorem settled_create (c : Creation) (fails : Bool) :
    (s.create deployer c fails).settled = s.settled.create deployer c fails := by
  cases fails <;> rfl

theorem settled_keep (receipt : Receipt) : (s.keep receipt).settled = s.settled.keep receipt := rfl

theorem settled_call (call : Call) (lag : Nat) :
    (s.call deployer target call lag).settled = s.settled.call deployer target call 0 := by
  have hexecute := execute_settled s.count deployer target call
  change s.settled.count.execute deployer target call = _ at hexecute
  rw [State.call, State.call, hexecute]
  cases s.count.execute deployer target call with
  | error revert => rfl
  | ok changed =>
    dsimp only [Except.map]
    rw [settled_keep, settled_delay, delay_zero]
    rfl

/-- A request does the same, whatever reads would show, and is answered alike. -/
theorem submit_settled (request : Request) :
    submit deployer request w.settled =
      ((submit deployer request w).1, (submit deployer request w).2.settled) := by
  cases request with
  | create c =>
    have hcreate := settled_create w.state deployer c (c.name ∈ w.faults.failing)
    rw [submit, submit, World.settled]
    dsimp only
    split
    · rfl
    · rw [← hcreate]
      rfl
  | call target call =>
    have hcall := settled_call w.state deployer target call w.faults.lag
    rw [submit, submit, World.settled]
    dsimp only
    rw [← hcall]
    rfl

theorem ofConfirmation_settled (transaction : Digest) (limit : Nat) :
    Answer.ofConfirmation (await transaction limit w.settled) =
      .ofConfirmation (await transaction limit w) := by
  have hstalled : w.settled.faults.stalled = w.faults.stalled := rfl
  have hreceipts : w.settled.state.receipts = w.state.receipts := rfl
  rw [await, await, hstalled, hreceipts]
  cases w.faults.stalled with
  | true => rfl
  | false => cases w.state.receipts.get? transaction <;> rfl

/-! ## Events -/

section events

variable {e : Event}

theorem settled_owner (registry : Address) (node : Node) :
    (owner registry node w).state.settled = w.settled := by
  rw [owner]
  split
  · rfl
  · change World.settled { w with state := (w.state.read registry node).2 } = _
    rw [State.read]
    split <;> rfl

/-- What only concerns reads leaves no trace but for them. -/
theorem settled_of_observes (h : e.observes = true) :
    (w.step deployer e).settled = w.settled := by
  cases e with
  | submit request => cases h
  | await transaction limit => cases h
  | read registry node => exact settled_owner w registry node
  | set switch => cases switch <;> first | rfl | cases h

/-- All other events do the same as without reads. -/
theorem settled_step (h : e.observes = false) :
    (w.step deployer e).settled = w.settled.step deployer e := by
  cases e with
  | submit request => exact (congrArg Prod.snd (submit_settled deployer w request)).symm
  | await transaction limit =>
    rw [World.step, World.step, stateAfter_await, stateAfter_await]
  | read registry node => cases h
  | set switch => cases switch <;> first | rfl | cases h

theorem answer?_of_observes (h : e.observes = true) : w.answer? deployer e = none := by
  cases e with
  | submit request => cases h
  | await transaction limit => cases h
  | read registry node => rfl
  | set switch => rfl

theorem answer?_settled : w.settled.answer? deployer e = w.answer? deployer e := by
  cases e with
  | submit request =>
    rw [World.answer?, World.answer?, submit_settled]
    rfl
  | await transaction limit =>
    exact congrArg some (ofConfirmation_settled w transaction limit)
  | read registry node => rfl
  | set switch => rfl

end events

/-! ## Histories -/

@[simp] theorem acting_nil : acting [] = [] := rfl

theorem acting_cons_of_observes {e : Event} (h : e.observes = true) (later : List Event) :
    acting (e :: later) = acting later := by
  simp [acting, h]

theorem acting_cons_of_acts {e : Event} (h : e.observes = false) (later : List Event) :
    acting (e :: later) = e :: acting later := by
  simp [acting, h]

theorem settled_play (history : List Event) :
    (w.play deployer history).settled = w.settled.play deployer (acting history) := by
  induction history generalizing w with
  | nil => rfl
  | cons e later ih =>
    rw [World.play_cons, ih]
    cases hobserves : e.observes with
    | true => rw [settled_of_observes deployer w hobserves, acting_cons_of_observes hobserves]
    | false =>
      rw [settled_step deployer w hobserves, acting_cons_of_acts hobserves, World.play_cons]

theorem answers_settled (history : List Event) :
    w.settled.answers deployer (acting history) = w.answers deployer history := by
  induction history generalizing w with
  | nil => rfl
  | cons e later ih =>
    rw [World.answers, ← ih]
    cases hobserves : e.observes with
    | true =>
      rw [settled_of_observes deployer w hobserves, acting_cons_of_observes hobserves,
        answer?_of_observes deployer w hobserves]
      rfl
    | false =>
      rw [settled_step deployer w hobserves, acting_cons_of_acts hobserves, World.answers,
        answer?_settled]

/-- Two worlds that nobody can tell apart who does not look at stale owners. -/
structure SameViews (w w' : World) : Prop where
  contracts : w.state.contracts = w'.state.contracts
  ownerOf : ∀ registry node, w.state.ownerOf registry node = w'.state.ownerOf registry node
  resolvers : w.state.resolvers = w'.state.resolvers
  interfaces : w.state.interfaces = w'.state.interfaces
  controllersOf : ∀ registrar, w.state.controllersOf registrar = w'.state.controllersOf registrar
  receipts : w.state.receipts = w'.state.receipts

theorem sameViews_settled : SameViews w w.settled where
  contracts := rfl
  ownerOf _ _ := rfl
  resolvers := rfl
  interfaces := rfl
  controllersOf _ := rfl
  receipts := rfl

/-- **A history undisturbed by its reads, lags and unreadable owners**: every submission and every
wait is answered as it is without them, and the ledger holds the same at every point. -/
structure Undisturbed (deployer : Address) (history : List Event) : Prop where
  answers : World.answers deployer {} history = World.answers deployer {} (acting history)
  views : ∀ n, SameViews (World.play deployer {} (history.take n))
    (World.play deployer {} (acting (history.take n)))

theorem undisturbed_play (history : List Event) : Undisturbed deployer history where
  answers := by
    rw [← answers_settled, settled_empty]
  views n := by
    have hsettled := settled_play deployer {} (history.take n)
    rw [settled_empty] at hsettled
    rw [← hsettled]
    exact sameViews_settled _

end Rollout.Simulated
