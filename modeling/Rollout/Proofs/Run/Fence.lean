import Rollout.Proofs.Run.Rehearsal

/-!
# Proofs/Run/Fence — how long a run waits for a lagging ledger

A run that polls reads at once and then once after every pause.  If the ledger has so many stale
reads left, it takes as many pauses until the owner is shown, and all of them have to end by the
deadline (`poll_of_stale`).  So the wait for a node that was just given to somebody succeeds exactly
if as many pauses as the ledger lags fit into the time of the policy (`awaitPropagation_of_stale`).
-/

namespace Rollout.Run

open Simulated (World State)

variable {deployer : Address} {p : PropagationPolicy} {e : Expectation} {t t' : Session World}

/-- The owner of a node is shown as it is from now on, and everything else is as before. -/
structure CaughtUp (e : Expectation) (t t' : Session World) : Prop where
  idle : Idle t'
  faults : t'.ledger.faults = t.ledger.faults
  holdings : t'.ledger.state.holdings = t.ledger.state.holdings
  shown : t'.ledger.state.stale.get? (e.registry, e.node) = none
  others : ∀ key, key ≠ (e.registry, e.node) →
    t'.ledger.state.stale.get? key = t.ledger.state.stale.get? key

section Poll

variable {deadline left : Nat} {failure : Option LedgerError} {previous : Address} {state : State}

/-- A poll ends with the first read that shows the owner. -/
theorem poll_of_shown (hidle : Idle t) (hreadable : t.ledger.faults.unreadable = false)
    (hread : t.ledger.state.read e.registry e.node = (e.owner, state)) :
    poll (Simulated.ledger deployer) p e deadline left failure t =
      (.ok (), { t with ledger := { t.ledger with state }, reads := t.reads + 1 }) := by
  have hshows : shows e (.ok e.owner) = true := by simp [shows]
  cases left <;> rw [poll, owner_of_read deployer hidle hreadable hread] <;>
    simp only [hshows, if_true]

/-- The session after a stale read, and the pause behind it. -/
def waited (e : Expectation) (previous : Address) (remaining milliseconds : Nat)
    (t : Session World) : Session World :=
  { t with
    ledger := { t.ledger with
      state := { t.ledger.state with
        stale := t.ledger.state.stale.insert (e.registry, e.node) ⟨previous, remaining⟩ } }
    clock := t.clock + milliseconds
    reads := t.reads + 1 }

theorem stale_waited (e : Expectation) (previous : Address) (remaining milliseconds : Nat)
    (t : Session World) :
    (waited e previous remaining milliseconds t).ledger.state.stale.get? (e.registry, e.node) =
      some ⟨previous, remaining⟩ :=
  (Assoc.get?_insert ..).trans (if_pos rfl)

/-- After a stale read, a poll goes on if there is time for a pause. -/
theorem poll_of_early {remaining : Nat} (hidle : Idle t)
    (hreadable : t.ledger.faults.unreadable = false)
    (hstale : t.ledger.state.stale.get? (e.registry, e.node) = some ⟨previous, remaining + 1⟩)
    (hprevious : previous ≠ e.owner) (hearly : t.clock + p.pollIntervalMs ≤ deadline) :
    poll (Simulated.ledger deployer) p e deadline (left + 1) failure t =
      poll (Simulated.ledger deployer) p e deadline left failure
        (waited e previous remaining p.pollIntervalMs t) := by
  have hread := Simulated.read_of_stale_succ hstale
  have hshows : shows e (.ok previous) = false := by simp [shows, hprevious]
  rw [poll, owner_of_read deployer hidle hreadable hread]
  simp only [hshows, Bool.false_eq_true, if_false, lastFailure, Nat.not_lt.2 hearly]
  rw [Idle.pause]
  · rfl
  · exact hidle

theorem poll_of_late {shown : Address} (hidle : Idle t)
    (hreadable : t.ledger.faults.unreadable = false)
    (hread : t.ledger.state.read e.registry e.node = (shown, state)) (hshown : shown ≠ e.owner)
    (hlate : deadline < t.clock + p.pollIntervalMs) :
    ∃ t', poll (Simulated.ledger deployer) p e deadline left failure t =
      (.error (.confirmationTimeout (.propagation e.node e.owner) p.timeoutSecs none failure),
        t') := by
  have hshows : shows e (.ok shown) = false := by simp [shows, hshown]
  cases left <;> rw [poll, owner_of_read deployer hidle hreadable hread] <;>
    simp only [hshows, Bool.false_eq_true, if_false, lastFailure, hlate, if_true] <;>
    exact ⟨_, rfl⟩

/-- A stale read and a pause change nothing that lasts. -/
theorem CaughtUp.of_waited {remaining milliseconds : Nat}
    (h : CaughtUp e (waited e previous remaining milliseconds t) t') : CaughtUp e t t' where
  idle := h.idle
  faults := h.faults
  holdings := h.holdings
  shown := h.shown
  others key hkey := by
    rw [h.others key hkey]
    exact (Assoc.get?_insert ..).trans (if_neg hkey.symm)

/-- **A poll outlasts the stale reads if all its pauses end by the deadline**, and runs out of time
otherwise.  `left` has to be enough pauses to reach the deadline. -/
theorem poll_of_stale (deployer : Address) (failure : Option LedgerError) {remaining : Nat}
    (hidle : Idle t) (hreadable : t.ledger.faults.unreadable = false)
    (hprevious : previous ≠ e.owner)
    (howner : t.ledger.state.ownerOf e.registry e.node = e.owner)
    (hstale : t.ledger.state.stale.get? (e.registry, e.node) = some ⟨previous, remaining⟩)
    (hclock : t.clock ≤ deadline) (hleft : deadline < t.clock + (left + 1) * p.pollIntervalMs) :
    (t.clock + remaining * p.pollIntervalMs ≤ deadline →
      ∃ t', poll (Simulated.ledger deployer) p e deadline left failure t = (.ok (), t') ∧
        CaughtUp e t t') ∧
    (deadline < t.clock + remaining * p.pollIntervalMs →
      ∃ t', poll (Simulated.ledger deployer) p e deadline left failure t =
        (.error (.confirmationTimeout (.propagation e.node e.owner) p.timeoutSecs none failure),
          t')) := by
  -- one stale read and one pause after the other
  induction remaining generalizing left t with
  | zero =>
    have hread := Simulated.read_of_stale_zero hstale
    rw [howner] at hread
    refine ⟨fun _ => ⟨_, poll_of_shown hidle hreadable hread, ?_⟩, fun hlate => by omega⟩
    refine ⟨hidle, rfl, rfl, ?_, fun key hkey => ?_⟩
    · exact (Assoc.get?_erase ..).trans (if_pos rfl)
    · exact (Assoc.get?_erase ..).trans (if_neg hkey.symm)
  | succ remaining ih =>
    by_cases hearly : t.clock + p.pollIntervalMs ≤ deadline
    · cases left with
      | zero => omega
      | succ left =>
        have hpauses : (remaining + 1) * p.pollIntervalMs =
            remaining * p.pollIntervalMs + p.pollIntervalMs := Nat.succ_mul ..
        have hmore : (left + 1 + 1) * p.pollIntervalMs =
            (left + 1) * p.pollIntervalMs + p.pollIntervalMs := Nat.succ_mul ..
        have hclock' : (waited e previous remaining p.pollIntervalMs t).clock =
            t.clock + p.pollIntervalMs := rfl
        have hleft' : deadline < (waited e previous remaining p.pollIntervalMs t).clock +
            (left + 1) * p.pollIntervalMs := by omega
        obtain ⟨hfits, hfails⟩ := ih (t := waited e previous remaining p.pollIntervalMs t) hidle
          hreadable howner (stale_waited ..) hearly hleft'
        rw [poll_of_early hidle hreadable hstale hprevious hearly]
        refine ⟨fun hlast => ?_, fun hlast => hfails (by omega)⟩
        obtain ⟨t', hrun, hcaught⟩ := hfits (by omega)
        exact ⟨t', hrun, hcaught.of_waited⟩
    · have hpauses : p.pollIntervalMs ≤ (remaining + 1) * p.pollIntervalMs :=
        Nat.le_mul_of_pos_left _ (Nat.succ_pos remaining)
      refine ⟨fun hlast => by omega, fun _ => ?_⟩
      have hread := Simulated.read_of_stale_succ hstale
      exact poll_of_late hidle hreadable hread hprevious (Nat.lt_of_not_le hearly)

end Poll

/-- **The wait for a node that was just given to somebody** succeeds exactly if as many pauses as
the ledger lags fit into the time of the policy. -/
theorem awaitPropagation_of_stale (deployer : Address) {previous : Address} {lag : Nat}
    (hmode : p.mode = .poll) (hinterval : 0 < p.pollIntervalMs) (hidle : Idle t)
    (hreadable : t.ledger.faults.unreadable = false) (hprevious : previous ≠ e.owner)
    (howner : t.ledger.state.ownerOf e.registry e.node = e.owner)
    (hstale : t.ledger.state.stale.get? (e.registry, e.node) =
      if lag = 0 then none else some ⟨previous, lag⟩) :
    (lag * p.pollIntervalMs ≤ 1000 * p.timeoutSecs →
      ∃ t', awaitPropagation (Simulated.ledger deployer) p e t = (.ok (), t') ∧ CaughtUp e t t') ∧
    (1000 * p.timeoutSecs < lag * p.pollIntervalMs →
      ∃ t', awaitPropagation (Simulated.ledger deployer) p e t =
        (.error (.confirmationTimeout (.propagation e.node e.owner) p.timeoutSecs none none),
          t')) := by
  have hpoll : awaitPropagation (Simulated.ledger deployer) p e t =
      poll (Simulated.ledger deployer) p e (t.clock + 1000 * p.timeoutSecs) (pausesWithin p) none
        t := by
    rw [awaitPropagation, hmode]
  rw [hpoll]
  by_cases hlag : lag = 0
  · subst hlag
    rw [if_pos rfl] at hstale
    have hread := Simulated.read_of_settled hstale
    rw [howner] at hread
    refine ⟨fun _ => ⟨_, poll_of_shown hidle hreadable hread, ?_⟩, fun hlate => by omega⟩
    exact ⟨hidle, rfl, rfl, hstale, fun _ _ => rfl⟩
  · rw [if_neg hlag] at hstale
    have hpauses : 1000 * p.timeoutSecs < (pausesWithin p + 1) * p.pollIntervalMs := by
      rw [pausesWithin, if_neg (Nat.ne_of_gt hinterval)]
      calc
        _ < p.pollIntervalMs * (1000 * p.timeoutSecs / p.pollIntervalMs + 1) :=
          Nat.lt_mul_div_succ _ hinterval
        _ = _ := Nat.mul_comm ..
    obtain ⟨hfits, hfails⟩ := poll_of_stale deployer none hidle hreadable hprevious
      howner hstale (Nat.le_add_right ..) (Nat.add_lt_add_left hpauses t.clock)
    exact ⟨fun hlast => hfits (Nat.add_le_add_left hlast _),
      fun hlast => hfails (Nat.add_lt_add_left hlast _)⟩

end Rollout.Run
