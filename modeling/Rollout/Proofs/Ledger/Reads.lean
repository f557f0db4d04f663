import Rollout.Proofs.Ledger.Holdings

/-!
# Proofs/Ledger/Reads — what reads of the ledger in memory show

A read shows the owner of a node as it is, unless the owner has changed lately: then the owner before
is shown as many times as the ledger lags (`read_of_stale_succ`).  Only a call that gives a node to
somebody makes reads of that node stale (`get?_stale_of_other`), so a ledger that does not lag shows
everything as it is at any time (`Candid`).
-/

namespace Rollout.Simulated

/-! ## Single reads -/

section Read

variable {s state : State} {registry : Address} {node : Node} {previous shown : Address} {w : World}

theorem read_of_settled (h : s.stale.get? (registry, node) = none) :
    s.read registry node = (s.ownerOf registry node, s) := by
  rw [State.read, h]

/-- The last stale read is over. -/
theorem read_of_stale_zero (h : s.stale.get? (registry, node) = some ⟨previous, 0⟩) :
    s.read registry node =
      (s.ownerOf registry node, { s with stale := s.stale.erase (registry, node) }) := by
  rw [State.read, h]

theorem read_of_stale_succ {remaining : Nat}
    (h : s.stale.get? (registry, node) = some ⟨previous, remaining + 1⟩) :
    s.read registry node =
      (previous, { s with stale := s.stale.insert (registry, node) ⟨previous, remaining⟩ }) := by
  rw [State.read, h]

theorem owner_of_read (hreadable : w.faults.unreadable = false)
    (h : w.state.read registry node = (shown, state)) :
    owner registry node w = ⟨.ok shown, 0, { w with state }⟩ := by
  rw [owner, hreadable, h]
  rfl

end Read

/-! ## What submissions make stale -/

/-- A creation makes no read stale. -/
theorem stale_create (deployer : Address) (c : Creation) (w : World) :
    (submit deployer (.create c) w).2.state.stale = w.state.stale := by
  rw [submit]
  split
  · rfl
  · change (State.create ..).stale = _
    rw [State.create]
    split <;> rfl

section Calls

variable (s : State) {deployer target : Address} {call : Call} {lag : Nat}

/-- A call makes reads stale where it gives a node to somebody, if the ledger lags. -/
theorem stale_call_of_granted (h : Granted s.holdings deployer target call) :
    (s.call deployer target call lag).stale = (s.delay lag (s.ownerChange? target call)).stale := by
  have hcount := execute_holdings s.count deployer target call
  rw [show s.count.holdings = s.holdings from rfl, execute_of_granted h] at hcount
  rw [State.call]
  cases hexecute : s.count.execute deployer target call with
  | error revert =>
    rw [hexecute] at hcount
    cases hcount
  | ok changed =>
    rw [apply_of_execute hexecute]
    cases call with
    | setSubnodeOwner node label owner =>
      change (State.delay _ lag (some _)).stale = (State.delay _ lag (some _)).stale
      rw [State.delay, State.delay]
      split <;> rfl
    | _ => rfl

/-- Reads of other nodes go on as before. -/
theorem get?_stale_of_other {key : Address × Node} (h : Granted s.holdings deployer target call)
    (hother : ∀ change, s.ownerChange? target call = some change → change.1 ≠ key) :
    (s.call deployer target call lag).stale.get? key = s.stale.get? key := by
  rw [stale_call_of_granted s h]
  cases hchange : s.ownerChange? target call with
  | none => rfl
  | some change =>
    rw [State.delay]
    split
    · rfl
    · exact (Assoc.get?_insert ..).trans (if_neg (hother change hchange))

theorem get?_stale_of_change {key : Address × Node} {previous : Address}
    (h : Granted s.holdings deployer target call)
    (hchange : s.ownerChange? target call = some (key, previous)) :
    (s.call deployer target call lag).stale.get? key =
      if lag = 0 then s.stale.get? key else some ⟨previous, lag⟩ := by
  rw [stale_call_of_granted s h, hchange, State.delay]
  split
  · rfl
  · exact (Assoc.get?_insert ..).trans (if_pos rfl)

theorem stale_call_of_prompt (deployer target : Address) (call : Call) :
    (s.call deployer target call 0).stale = s.stale := by
  rw [State.call]
  cases hexecute : s.count.execute deployer target call with
  | error revert => rfl
  | ok changed =>
    have hchanged : changed.stale = s.stale := by
      rw [apply_of_execute hexecute]
      cases call <;> rfl
    cases call <;> exact hchanged

end Calls

/-! ## Ledgers that do not lag -/

/-- A ledger whose reads show every owner as it is: they work, and nothing stale is left to show. -/
structure Candid (w : World) : Prop where
  lag : w.faults.lag = 0
  readable : w.faults.unreadable = false
  current : w.state.stale = {}

section Candid

variable {w : World}

theorem Candid.read (h : Candid w) (registry : Address) (node : Node) :
    w.state.read registry node = (w.state.ownerOf registry node, w.state) := by
  refine read_of_settled ?_
  rw [h.current]
  rfl

theorem Candid.submit (h : Candid w) (deployer : Address) (request : Request) :
    Candid (submit deployer request w).2 := by
  have hfaults := faults_submit deployer request w
  refine ⟨by rw [hfaults, h.lag], by rw [hfaults, h.readable], ?_⟩
  cases request with
  | create c => rw [stale_create, h.current]
  | call target call =>
    change (State.call ..).stale = _
    rw [h.lag, stale_call_of_prompt, h.current]

end Candid

end Rollout.Simulated
