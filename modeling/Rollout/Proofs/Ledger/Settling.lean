import Rollout.Proofs.Ledger.Surfacing

/-!
# Proofs/Ledger/Settling — when reads of a node cannot go back any more

Stale reads may be left of several submissions, made under different lags, and a read that shows the
owner as it is may still be one of them.  But all stale reads of a node that are left show the same
account.  So once a read shows the owner of the node, whatever is left shows the owner too
(`SettledOn.of_read`), and every read does from then on, until the node gets another owner
(`SettledOn.play`).

There are two ways to another owner: the node is given away, or it is the root and its registry is
only just created (`Leaves` excludes both).
-/

namespace Rollout.Simulated

variable {deployer registry : Address} {node : Node} {owner : Address} {s : State} {w : World}
  {e : Event}

/-- **Reads of a node have nothing to show but its owner**: whatever is stale shows the same. -/
structure SettledOn (s : State) (registry : Address) (node : Node) (owner : Address) : Prop where
  current : s.ownerOf registry node = owner
  previous : ∀ stale, s.stale.get? (registry, node) = some stale → stale.previous = owner

/-! ## Reads -/

/-- A read brings no stale owner that was not there before. -/
theorem previous_of_read {key : Address × Node} {stale : StaleOwner} {registry' : Address}
    {node' : Node} (h : (s.read registry' node').2.stale.get? key = some stale) :
    ∃ earlier, s.stale.get? key = some earlier ∧ stale.previous = earlier.previous := by
  rcases hstale : s.stale.get? (registry', node') with - | ⟨previous, _ | remaining⟩
  · rw [read_of_settled hstale] at h
    exact ⟨stale, h, rfl⟩
  · rw [read_of_stale_zero hstale] at h
    have herased := (Assoc.get?_erase ..).symm.trans h
    split at herased
    · cases herased
    · exact ⟨stale, herased, rfl⟩
  · rw [read_of_stale_succ hstale] at h
    have hinserted := (Assoc.get?_insert ..).symm.trans h
    split at hinserted
    · next hsame =>
      cases hinserted
      exact ⟨⟨previous, remaining + 1⟩, hsame ▸ hstale, rfl⟩
    · exact ⟨stale, hinserted, rfl⟩

theorem ownerOf_read (s : State) (registry' registry : Address) (node' node : Node) :
    (s.read registry' node').2.ownerOf registry node = s.ownerOf registry node := by
  rw [State.read]
  split <;> rfl

namespace SettledOn

/-- **A read that shows the owner settles the node.** -/
theorem of_read (howner : s.ownerOf registry node = owner)
    (hshown : (s.read registry node).1 = owner) :
    SettledOn (s.read registry node).2 registry node owner where
  current := (ownerOf_read ..).trans howner
  previous stale h := by
    obtain ⟨earlier, hearlier, hprevious⟩ := previous_of_read h
    obtain ⟨previous, _ | remaining⟩ := earlier
    · -- the entry is used up by the read
      rw [read_of_stale_zero hearlier] at h
      cases ((Assoc.get?_erase ..).trans (if_pos rfl)).symm.trans h
    · rw [read_of_stale_succ hearlier] at hshown
      exact hprevious.trans hshown

/-- A read of a settled node shows the owner. -/
theorem read (h : SettledOn s registry node owner) : (s.read registry node).1 = owner := by
  rcases hstale : s.stale.get? (registry, node) with - | ⟨previous, _ | remaining⟩
  · rw [read_of_settled hstale, h.current]
  · rw [read_of_stale_zero hstale, h.current]
  · rw [read_of_stale_succ hstale]
    exact h.previous _ hstale

theorem of_answer (howner : w.state.ownerOf registry node = owner)
    (hanswer : (Simulated.owner registry node w).answer = .ok owner) :
    SettledOn (Simulated.owner registry node w).state.state registry node owner := by
  rcases hreadable : w.faults.unreadable with _ | _
  · rw [owner_of_read hreadable rfl] at hanswer ⊢
    exact of_read howner (Except.ok.inj hanswer)
  · rw [Simulated.owner, hreadable] at hanswer
    cases hanswer

/-- On a ledger whose reads work. -/
theorem answer (h : SettledOn w.state registry node owner)
    (hreadable : w.faults.unreadable = false) :
    (Simulated.owner registry node w).answer = .ok owner := by
  rw [owner_of_read hreadable rfl]
  exact congrArg Except.ok h.read

end SettledOn

/-! ## Other events -/

/-- **An event leaves the owner of a node**: it does not give the node away, and it does not create
the registry whose root the node is. -/
structure Leaves (deployer registry : Address) (node : Node) (w : World) (e : Event) : Prop where
  spares : Spares deployer registry node w e
  unfounded : node = Naming.root → w.state.contracts.get? registry = none →
    (w.step deployer e).state.contracts.get? registry = none

/-- Every event of a history leaves the owner of the node. -/
def LeftAlone (deployer registry : Address) (node : Node) : World → List Event → Prop
  | _, [] => True
  | w, e :: later =>
    Leaves deployer registry node w e ∧ LeftAlone deployer registry node (w.step deployer e) later

/-- Where a registry is there already, only giving the node away changes its owner. -/
theorem leftAlone_of_contract {contract : Contract} {later : List Event}
    (hcontract : w.state.contracts.get? registry = some contract)
    (hspared : Spared deployer registry node w later) : LeftAlone deployer registry node w later := by
  induction later generalizing w contract with
  | nil => trivial
  | cons e later ih =>
    obtain ⟨contract', hcontract'⟩ := (effect_of_step deployer w e).contract hcontract
    refine ⟨⟨hspared.1, fun _ hnone => ?_⟩, ih hcontract' hspared.2⟩
    cases hnone.symm.trans hcontract

theorem ownerOf_step (hcreated : CreatedBy deployer w.state)
    (h : Leaves deployer registry node w e) :
    (w.step deployer e).state.ownerOf registry node = w.state.ownerOf registry node := by
  have heffect := effect_of_step deployer w e
  rw [State.ownerOf, State.ownerOf, heffect.recorded h.spares]
  rcases w.state.owners.get? (registry, node) with - | recorded
  · dsimp only
    split
    · next hroot =>
      rcases hcontract : w.state.contracts.get? registry with - | contract
      · rw [h.unfounded hroot hcontract]
      · obtain ⟨contract', hcontract'⟩ := heffect.contract hcontract
        rw [hcontract']
        exact (heffect.createdBy hcreated _ _ hcontract').trans
          (hcreated _ _ hcontract).symm
    · rfl
  · rfl

/-- Whatever is stale after an event that leaves the node was stale before. -/
theorem previous_of_step {stale : StaleOwner} (hspares : Spares deployer registry node w e)
    (h : (w.step deployer e).state.stale.get? (registry, node) = some stale) :
    ∃ earlier, w.state.stale.get? (registry, node) = some earlier ∧
      stale.previous = earlier.previous := by
  cases e with
  | submit request => exact ⟨stale, (get?_stale_submit hspares).symm.trans h, rfl⟩
  | await transaction limit =>
    rw [World.step, stateAfter_await] at h
    exact ⟨stale, h, rfl⟩
  | set switch => exact ⟨stale, h, rfl⟩
  | read registry' node' =>
    rcases hreadable : w.faults.unreadable with _ | _
    · rw [World.step, owner_of_read hreadable rfl] at h
      exact previous_of_read h
    · rw [World.step, Simulated.owner, hreadable] at h
      exact ⟨stale, h, rfl⟩

/-- **One event**: a settled node stays settled. -/
theorem SettledOn.step (h : SettledOn w.state registry node owner)
    (hcreated : CreatedBy deployer w.state) (hleaves : Leaves deployer registry node w e) :
    SettledOn (w.step deployer e).state registry node owner where
  current := (ownerOf_step hcreated hleaves).trans h.current
  previous stale hstale := by
    obtain ⟨earlier, hearlier, hprevious⟩ := previous_of_step hleaves.spares hstale
    exact hprevious.trans (h.previous earlier hearlier)

/-- **Any history**: a settled node stays settled as long as it is left alone. -/
theorem SettledOn.play {later : List Event} (h : SettledOn w.state registry node owner)
    (hcreated : CreatedBy deployer w.state)
    (hleft : LeftAlone deployer registry node w later) :
    SettledOn (w.play deployer later).state registry node owner := by
  induction later generalizing w with
  | nil => exact h
  | cons e later ih =>
    have hcreated' := (effect_of_step deployer w e).createdBy hcreated
    exact ih (h.step hcreated hleft.1) hcreated' hleft.2

end Rollout.Simulated
