import Rollout.Data.Address
import Rollout.Proofs.Ledger.History

/-!
# Proofs/Ledger/Owners — how anybody comes to own a node

Whatever the history of a ledger, a node that somebody was given lies in the registry of a contract
and is reached from the root through nodes that were given away before (`Way`).  And the owner of a
node only changes where its parent's owner, who is the account of the ledger, gives it away
(`Gives`).  `ownersGiven_play` puts the two together.

Both rest on the authority that a call takes: below the root an owner other than nobody was
recorded, and the owner of an unrecorded root is the creator of its contract, who is the account of
the ledger for all contracts alike (`CreatedBy`).
-/

namespace Rollout.Simulated

variable {deployer registry : Address} {node : Node} {s s' : State} {w w' : World} {e : Event}

/-! ## Holdings -/

section holdings

variable (h : s.holdings = s')
include h

theorem contracts_of_holdings : s.contracts = s'.contracts := by
  rw [← h]
  rfl

theorem owners_of_holdings : s.owners = s'.owners := by
  rw [← h]
  rfl

theorem ownerOf_of_holdings (registry : Address) (node : Node) :
    s.ownerOf registry node = s'.ownerOf registry node := by
  rw [← h]
  rfl

end holdings

/-! ## Contracts -/

/-- Every contract was created by the given account. -/
def CreatedBy (deployer : Address) (s : State) : Prop :=
  ∀ address contract, s.contracts.get? address = some contract → contract.creator = deployer

/-- The contracts after a creation. -/
theorem get?_contracts_produce (s : State) (deployer address : Address) (c : Creation) :
    (s.produce deployer c).contracts.get? address =
      if deployer.ofCreation s.nonce = address then some ⟨c.contract, deployer, c.args⟩
      else s.contracts.get? address :=
  Assoc.get?_insert ..

theorem Effect.contracts (h : Effect deployer w w' e) :
    w'.state.contracts = w.state.contracts ∨
      ∃ c, w'.state.contracts = (w.state.produce deployer c).contracts := by
  cases h with
  | kept hholdings =>
    have hsame := contracts_of_holdings hholdings
    exact .inl hsame
  | @created c _ hholdings =>
    have hproduced := contracts_of_holdings hholdings
    exact .inr ⟨c, hproduced⟩
  | called _ _ hholdings =>
    have happlied := contracts_of_holdings hholdings
    exact .inl (happlied.trans (contracts_apply ..))

theorem Effect.createdBy (h : Effect deployer w w' e) (hcreated : CreatedBy deployer w.state) :
    CreatedBy deployer w'.state := by
  intro address contract hcontract
  rcases h.contracts with hsame | ⟨c, hproduced⟩
  · rw [hsame] at hcontract
    exact hcreated address contract hcontract
  · rw [hproduced, get?_contracts_produce] at hcontract
    split at hcontract
    · cases hcontract
      rfl
    · exact hcreated address contract hcontract

/-- A contract is never taken away. -/
theorem Effect.contract (h : Effect deployer w w' e) {contract : Contract}
    (hcontract : w.state.contracts.get? registry = some contract) :
    ∃ contract', w'.state.contracts.get? registry = some contract' := by
  rcases h.contracts with hsame | ⟨c, hproduced⟩
  · exact ⟨contract, by rw [hsame, hcontract]⟩
  · rw [hproduced, get?_contracts_produce, hcontract]
    split
    · exact ⟨_, rfl⟩
    · exact ⟨_, rfl⟩

theorem createdBy_play (deployer : Address) (history : List Event) :
    CreatedBy deployer (World.play deployer {} history).state := by
  have hstart : CreatedBy deployer (World.state {}) := by
    intro address contract hcontract
    cases hcontract
  exact of_play (P := fun w => CreatedBy deployer w.state) hstart Effect.createdBy history

/-! ## Ways from the root -/

/-- The labels lead from the root to a node, and every node on the way was given to somebody. -/
structure Way (s : State) (registry : Address) (labels : List Digest) (node : Node) : Prop where
  leads : labels.foldl Naming.subnode Naming.root = node
  owned : ∀ upper, upper <+: labels → upper ≠ [] →
    ∃ owner, s.owners.get? (registry, upper.foldl Naming.subnode Naming.root) = some owner

theorem way_root (s : State) (registry : Address) : Way s registry [] Naming.root where
  leads := rfl
  owned := by
    intro upper hupper hne
    exact absurd (List.prefix_nil.1 hupper) hne

/-- Nodes stay given, to whomever. -/
theorem Way.mono {labels : List Digest} (h : Way s registry labels node)
    (hkept : ∀ key owner, s.owners.get? key = some owner →
      ∃ owner', s'.owners.get? key = some owner') : Way s' registry labels node where
  leads := h.leads
  owned := by
    intro upper hupper hne
    obtain ⟨owner, howner⟩ := h.owned upper hupper hne
    exact hkept _ owner howner

/-- A way goes on to a child that was given to somebody. -/
theorem Way.child {labels : List Digest} {label : Digest} {owner : Address}
    (h : Way s registry labels node)
    (howner : s.owners.get? (registry, Naming.subnode node label) = some owner) :
    Way s registry (labels ++ [label]) (Naming.subnode node label) := by
  have hleads : (labels ++ [label]).foldl Naming.subnode Naming.root =
      Naming.subnode node label := by
    rw [List.foldl_append, h.leads]
    rfl
  refine ⟨hleads, fun upper hupper hne => ?_⟩
  rcases List.prefix_concat_iff.1 hupper with rfl | hearlier
  · exact ⟨owner, by rw [hleads, howner]⟩
  · exact h.owned upper hearlier hne

/-- **What recorded owners rest on**: the registry is a contract, and the node lies at the end of a
way from the root. -/
structure Founded (s : State) : Prop where
  contract : ∀ registry node owner, s.owners.get? (registry, node) = some owner →
    ∃ contract, s.contracts.get? registry = some contract
  way : ∀ registry node owner, s.owners.get? (registry, node) = some owner →
    ∃ labels, labels ≠ [] ∧ Way s registry labels node

/-- Whoever the account of the ledger may act for lies at the end of a way: the root, or a node
that was given to the account. -/
theorem Founded.way_of_ownerOf (h : Founded s) (hdeployer : deployer ≠ .zero 20)
    (howner : s.ownerOf registry node = deployer) : ∃ labels, Way s registry labels node := by
  by_cases hroot : node = Naming.root
  · exact ⟨[], hroot ▸ way_root s registry⟩
  · have hrecorded := get?_owners_of_ownerOf howner hroot hdeployer
    obtain ⟨labels, -, hway⟩ := h.way registry node deployer hrecorded
    exact ⟨labels, hway⟩

/-- A node given to somebody by the account of the ledger is founded as all others are. -/
theorem Founded.give {contract : Contract} {label : Digest} {owner : Address} (h : Founded s)
    (hdeployer : deployer ≠ .zero 20) (hcontract : s.contracts.get? registry = some contract)
    (howner : s.ownerOf registry node = deployer) (hcontracts : s'.contracts = s.contracts)
    (howners : s'.owners = s.owners.insert (registry, Naming.subnode node label) owner) :
    Founded s' := by
  have hget (key : Address × Node) : s'.owners.get? key =
      if (registry, Naming.subnode node label) = key then some owner else s.owners.get? key := by
    rw [howners, Assoc.get?_insert]
  have hkept : ∀ key owner, s.owners.get? key = some owner →
      ∃ owner', s'.owners.get? key = some owner' := by
    intro key previous hprevious
    rw [hget, hprevious]
    split
    · exact ⟨owner, rfl⟩
    · exact ⟨previous, rfl⟩
  constructor
  case contract =>
    intro other below account haccount
    rw [hget] at haccount
    rw [hcontracts]
    split at haccount
    · next hsame =>
      cases hsame
      exact ⟨contract, hcontract⟩
    · exact h.contract other below account haccount
  case way =>
    intro other below account haccount
    rw [hget] at haccount
    split at haccount
    · next hsame =>
      cases hsame
      obtain ⟨labels, hway⟩ := h.way_of_ownerOf hdeployer howner
      have hgiven := (hget (registry, Naming.subnode node label)).trans (if_pos rfl)
      exact ⟨labels ++ [label], by simp, (hway.mono hkept).child hgiven⟩
    · obtain ⟨labels, hne, hway⟩ := h.way other below account haccount
      exact ⟨labels, hne, hway.mono hkept⟩

/-- Where no owner changes, owners are founded as before. -/
theorem Founded.of_owners (h : Founded s) (howners : s'.owners = s.owners)
    (hcontracts : ∀ address contract, s.contracts.get? address = some contract →
      ∃ contract', s'.contracts.get? address = some contract') : Founded s' := by
  constructor
  case contract =>
    intro registry node owner howner
    rw [howners] at howner
    obtain ⟨contract, hcontract⟩ := h.contract registry node owner howner
    exact hcontracts registry contract hcontract
  case way =>
    intro registry node owner howner
    rw [howners] at howner
    obtain ⟨labels, hne, hway⟩ := h.way registry node owner howner
    exact ⟨labels, hne, hway.mono fun key owner howner => ⟨owner, by rw [howners, howner]⟩⟩

/-- An event leaves the recorded owners alone, or gives a node away whose parent the account of the
ledger owns. -/
theorem Effect.owners (h : Effect deployer w w' e) :
    w'.state.owners = w.state.owners ∨
      ∃ registry node label owner contract, w.state.contracts.get? registry = some contract ∧
        w.state.ownerOf registry node = deployer ∧ w'.state.contracts = w.state.contracts ∧
        w'.state.owners = w.state.owners.insert (registry, Naming.subnode node label) owner := by
  cases h with
  | kept hholdings =>
    have howners := owners_of_holdings hholdings
    exact .inl howners
  | created _ hholdings =>
    have howners := owners_of_holdings hholdings
    exact .inl howners
  | @called target call _ hgranted hholdings =>
    have howners := owners_of_holdings hholdings
    cases hgranted with
    | subnode hcontract howner =>
      have hcontracts := contracts_of_holdings hholdings
      exact .inr ⟨target, _, _, _, _, hcontract, howner, hcontracts, howners⟩
    | _ => exact .inl howners

theorem Effect.founded (h : Effect deployer w w' e) (hdeployer : deployer ≠ .zero 20)
    (hfounded : Founded w.state) : Founded w'.state := by
  rcases h.owners with hsame | ⟨_, _, _, _, _, hcontract, howner, hcontracts, howners⟩
  · exact hfounded.of_owners hsame fun address contract hcontract => h.contract hcontract
  · exact hfounded.give hdeployer hcontract howner hcontracts howners

theorem founded_play (hdeployer : deployer ≠ .zero 20) (history : List Event) :
    Founded (World.play deployer {} history).state := by
  have hstart : Founded (World.state {}) := by
    constructor
    · intro registry node owner howner
      cases howner
    · intro registry node owner howner
      cases howner
  exact of_play (P := fun w => Founded w.state) hstart (fun h => h.founded hdeployer) history

/-! ## Changes of owners -/

/-- **An event gives a node to an owner**: it is a submission that succeeds, to the registry, which
gives a child of a node that the account of the ledger owned just before. -/
inductive Gives (deployer : Address) (w : World) (registry : Address) (node : Node)
    (owner : Address) : Event → Prop where
  | intro {parent : Node} {label : Digest} (hnode : Naming.subnode parent label = node)
      (howner : w.state.ownerOf registry parent = deployer)
      (hsuccess : Succeeds deployer (.call registry (.setSubnodeOwner parent label owner)) w) :
      Gives deployer w registry node owner
        (.submit (.call registry (.setSubnodeOwner parent label owner)))

/-- Owners in a contract's registry stay when another contract is created. -/
theorem ownerOf_produce {contract : Contract} (hcreated : CreatedBy deployer s)
    (hcontract : s.contracts.get? registry = some contract) (c : Creation) (node : Node) :
    (s.produce deployer c).ownerOf registry node = s.ownerOf registry node := by
  have hcreator := hcreated registry contract hcontract
  rw [State.ownerOf, State.ownerOf, get?_contracts_produce, hcontract]
  -- even a contract at the same address has the same creator
  by_cases hsame : deployer.ofCreation s.nonce = registry
  · simp [hsame, hcreator, State.produce]
  · simp [hsame, State.produce]

/-- A node that is given away changes nothing about others, in any registry. -/
theorem ownerOf_give (s : State) (target registry : Address) (parent node : Node) (label : Digest)
    (owner : Address) :
    (s.apply target (.setSubnodeOwner parent label owner)).ownerOf registry node =
        s.ownerOf registry node ∨
      target = registry ∧ Naming.subnode parent label = node ∧
        (s.apply target (.setSubnodeOwner parent label owner)).ownerOf registry node = owner := by
  by_cases hsame : target = registry
  · subst hsame
    rw [ownerOf_apply]
    split
    · next hnode => exact .inr ⟨rfl, hnode, rfl⟩
    · exact .inl rfl
  · left
    simp [State.ownerOf, State.apply, Assoc.get?_insert, hsame]

/-- The owner of a node stays, or is whoever an event gives the node to. -/
theorem Effect.ownerOf {contract : Contract} (h : Effect deployer w w' e)
    (hcreated : CreatedBy deployer w.state)
    (hcontract : w.state.contracts.get? registry = some contract) :
    w'.state.ownerOf registry node = w.state.ownerOf registry node ∨
      Gives deployer w registry node (w'.state.ownerOf registry node) e := by
  cases h with
  | kept hholdings => exact .inl (ownerOf_of_holdings hholdings registry node)
  | @created c _ hholdings =>
    have hproduced := ownerOf_of_holdings hholdings registry node
    exact .inl (hproduced.trans (ownerOf_produce hcreated hcontract c node))
  | @called target call hsuccess hgranted hholdings =>
    have happlied := ownerOf_of_holdings hholdings registry node
    cases hgranted with
    | @subnode _ parent label owner _ hparent =>
      rcases ownerOf_give w.state.holdings target registry parent node label owner with
        hsame | ⟨rfl, rfl, hgiven⟩
      · exact .inl (happlied.trans hsame)
      · rw [happlied, hgiven]
        exact .inr (.intro rfl hparent hsuccess)
    | _ => exact .inl happlied

/-- A contract stays through any history. -/
theorem contract_play (deployer : Address) {contract : Contract}
    (hcontract : w.state.contracts.get? registry = some contract) (later : List Event) :
    ∃ contract', (w.play deployer later).state.contracts.get? registry = some contract' :=
  of_play (P := fun w => ∃ contract, w.state.contracts.get? registry = some contract)
    ⟨contract, hcontract⟩ (fun h ⟨_, hcontract⟩ => h.contract hcontract) later

/-- Whoever is given a node with authority owns it afterwards. -/
theorem ownerOf_submit {parent : Node} {label : Digest} {owner : Address}
    (h : Granted w.state.holdings deployer registry (.setSubnodeOwner parent label owner)) :
    (w.step deployer (.submit (.call registry (.setSubnodeOwner parent label owner)))).state.ownerOf
      registry (Naming.subnode parent label) = owner := by
  have hholdings := holdings_call w.state deployer registry (.setSubnodeOwner parent label owner)
    w.faults.lag
  rw [execute_of_granted h] at hholdings
  have howner := ownerOf_of_holdings hholdings registry (Naming.subnode parent label)
  rw [ownerOf_apply, if_pos rfl] at howner
  exact howner

/-- A node that nobody was given belongs to the creator of its registry or to nobody. -/
theorem ownerOf_unassigned {contract : Contract} (node : Node)
    (hunassigned : s.owners.get? (registry, node) = none)
    (hcontract : s.contracts.get? registry = some contract) :
    s.ownerOf registry node = contract.creator ∨ s.ownerOf registry node = .zero 20 := by
  rw [State.ownerOf, hunassigned]
  dsimp only
  split
  · exact .inl (by rw [hcontract])
  · exact .inr rfl

/-- Where an owner changes, the node was given away in between, and the new owner is the last who
was given it. -/
theorem gives_of_changed {contract : Contract} (earlier later : List Event)
    (hcontract :
      (World.play deployer {} earlier).state.contracts.get? registry = some contract)
    (hchanged : (World.play deployer {} (earlier ++ later)).state.ownerOf registry node ≠
      (World.play deployer {} earlier).state.ownerOf registry node) :
    ∃ before e after, later = before ++ e :: after ∧
      Gives deployer (World.play deployer {} (earlier ++ before)) registry node
        ((World.play deployer {} (earlier ++ later)).state.ownerOf registry node) e := by
  induction later using List.reverseRecOn with
  | nil => exact absurd (by rw [List.append_nil]) hchanged
  | append_singleton later e ih =>
    have hstep : World.play deployer {} (earlier ++ (later ++ [e])) =
        (World.play deployer {} (earlier ++ later)).step deployer e := by
      rw [← List.append_assoc, World.play_append, World.play_singleton]
    obtain ⟨contract', hcontract'⟩ := contract_play deployer hcontract later
    rw [← World.play_append] at hcontract'
    rw [hstep] at hchanged ⊢
    have heffect := effect_of_step deployer (World.play deployer {} (earlier ++ later)) e
    rcases heffect.ownerOf (createdBy_play deployer _) hcontract' with hsame | hgives
    · rw [hsame] at hchanged ⊢
      obtain ⟨before, e', after, rfl, hgives⟩ := ih hchanged
      exact ⟨before, e', after ++ [e], by simp, hgives⟩
    · exact ⟨later, e, [], rfl, hgives⟩

/-- **Owners are given their nodes.** -/
structure OwnersGiven (deployer : Address) (earlier later : List Event) : Prop where
  founded : Founded (World.play deployer {} earlier).state
  given : ∀ registry node contract,
    (World.play deployer {} earlier).state.contracts.get? registry = some contract →
    (World.play deployer {} (earlier ++ later)).state.ownerOf registry node ≠
      (World.play deployer {} earlier).state.ownerOf registry node →
    ∃ before e after, later = before ++ e :: after ∧
      Gives deployer (World.play deployer {} (earlier ++ before)) registry node
        ((World.play deployer {} (earlier ++ later)).state.ownerOf registry node) e

/-- **On every ledger of an account that is not nobody, and after every history**, recorded owners
hold nodes of contracts that are reached from the root through given nodes; and an owner that
changes later is one whom a submission in between gave the node, with the authority of whoever
owned its parent just before. -/
theorem ownersGiven_play (hdeployer : deployer ≠ .zero 20) (earlier later : List Event) :
    OwnersGiven deployer earlier later where
  founded := founded_play hdeployer earlier
  given _ _ _ hcontract hchanged := gives_of_changed earlier later hcontract hchanged

/-- The creation of a registry without arguments. -/
def registryCreated : Event :=
  .submit (.create { name := "root", contract := "Root", args := [], libraries := [] })

/-- The first contract of the account gives a child of its root to another account. -/
def childGiven : Event :=
  .submit (.call (Address.defaultDeployer.ofCreation 0)
    (.setSubnodeOwner Naming.root (.zero 32) (.ofNat 20 1)))

theorem get?_registryCreated :
    (World.play .defaultDeployer {} [registryCreated]).state.contracts.get?
      (Address.defaultDeployer.ofCreation 0) = some ⟨"Root", .defaultDeployer, []⟩ :=
  (Assoc.get?_insert ..).trans (if_pos rfl)

/-- The creator of a registry gives a child of its root to another account. -/
theorem ownersGiven_play_child :
    Address.defaultDeployer ≠ .zero 20 ∧
      Gives .defaultDeployer (World.play .defaultDeployer {} [registryCreated])
        (Address.defaultDeployer.ofCreation 0) (Naming.subnode Naming.root (.zero 32))
        (.ofNat 20 1) childGiven := by
  have haccount : Address.defaultDeployer ≠ .zero 20 := by decide
  refine ⟨haccount, ?_⟩
  have hgiven : (World.play .defaultDeployer {} ([registryCreated] ++ [childGiven])).state.ownerOf
      (Address.defaultDeployer.ofCreation 0) (Naming.subnode Naming.root (.zero 32)) =
        .ofNat 20 1 :=
    ownerOf_submit (.subnode get?_registryCreated (ownerOf_root rfl get?_registryCreated))
  have hother : (World.play .defaultDeployer {} [registryCreated]).state.ownerOf
      (Address.defaultDeployer.ofCreation 0) (Naming.subnode Naming.root (.zero 32)) ≠
        .ofNat 20 1 := by
    have hdefault := ownerOf_unassigned (Naming.subnode Naming.root (.zero 32)) rfl
      get?_registryCreated
    rcases hdefault with h | h
    · rw [h]
      decide
    · rw [h]
      decide
  obtain ⟨before, e, after, hsplit, hgives⟩ :=
    (ownersGiven_play haccount [registryCreated] [childGiven]).given _ _ _ get?_registryCreated
      (by rw [hgiven]; exact hother.symm)
  obtain ⟨rfl, rfl, rfl⟩ : before = [] ∧ e = childGiven ∧ after = [] := by
    cases before with
    | nil => simpa [eq_comm] using hsplit
    | cons first before => simp at hsplit
  rw [hgiven] at hgives
  exact hgives

end Rollout.Simulated
