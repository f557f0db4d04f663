import Rollout.Config.Preset
import Rollout.Proofs.Data.Bytes
import Rollout.Proofs.Data.Keccak
import Rollout.Proofs.Naming.Path
import Rollout.Proofs.Run.Contracts
import Rollout.Proofs.Run.Faultless
import Rollout.Proofs.Run.Scene

/-!
# Proofs/Config/Preset — the preset sets up a whole naming system

The preset deploys eight contracts, whose addresses are those of the first creations of the account
(`parts`), and wires them in three parts: the account takes the domain and publishes its controller,
hands the domain over to the registrar, and sets up the reverse registrar.  Each part leaves the
ledger in a state that is written down (`published`, `handedOver`, `reversed`), whatever happened
before.  Only what the account takes for itself is waited for.  The hand-over is not, so that reads
may show the previous owner of the domain until the end; but no later step asks for that owner.

On a ledger that lags, both waits need the same time.  So the run fails at the first one or
completes, and then the naming system stands (`preset_run`).
-/

namespace Rollout

namespace Config.Preset

/-! ## The plan -/

variable (domain : String) (pricing : Pricing)

/-- The plan of the preset: its components are in order already. -/
def plan : Plan :=
  ⟨components domain pricing, some "ENSRegistry", wiring domain⟩

theorem names_components : (components domain pricing).map Component.name =
    ["ENSRegistry", "StablePriceOracle", "PublicResolver", "BaseRegistrarImplementation",
      "StringUtils", "ETHRegistrarController", "DefaultReverseResolver", "ReverseRegistrar"] := rfl

theorem nodup_components : ((components domain pricing).map Component.name).Nodup := by
  rw [names_components]
  decide

theorem arranged_components : Plan.Arranged [] (components domain pricing) := by
  simp [components, Plan.Arranged, Component.references, Argument.component?, word]

/-- The preset is accepted, in the order in which it is written. -/
theorem plan_preset : (Config.preset domain pricing).plan = .ok (plan domain pricing) := by
  have hregistry : Plan.registryFault? (components domain pricing) (some "ENSRegistry")
      (wiring domain) = none := rfl
  have hdangling : Plan.firstDangling? (components domain pricing) (wiring domain) = none := rfl
  exact Plan.make_of_arranged (nodup_components domain pricing) (arranged_components domain pricing)
    hregistry hdangling

/-! ## Nodes -/

/-- The strings that are hashed for the nodes: the labels, and every label below its parent. -/
def hashed : List (List UInt8) :=
  [Hex.bytesOf domain, Hex.bytesOf "reverse", Hex.bytesOf "addr",
    (Naming.node "").toList ++ (Naming.labelHash domain).toList,
    (Naming.node "").toList ++ (Naming.labelHash "reverse").toList,
    (Naming.node "reverse").toList ++ (Naming.labelHash "addr").toList]

/-- **Nothing collides**: different strings that are hashed for the nodes have different digests,
none of which is that of the root, and the first contracts of an account get different addresses. -/
structure CollisionFree (deployer : Address) (domain : String) : Prop where
  digests : ∀ x ∈ hashed domain, ∀ y ∈ hashed domain, Keccak.digest x = Keccak.digest y → x = y
  root : ∀ x ∈ hashed domain, Keccak.digest x ≠ Naming.node ""
  addresses : ∀ i j, i < 8 → j < 8 → deployer.ofCreation i = deployer.ofCreation j → i = j

/-- The four nodes that the preset is about are different. -/
structure Apart (domain : String) : Prop where
  domain_ne_root : Naming.node domain ≠ Naming.node ""
  reverse_ne_root : Naming.node "reverse" ≠ Naming.node ""
  addr_ne_root : Naming.node "addr.reverse" ≠ Naming.node ""
  reverse_ne_domain : Naming.node "reverse" ≠ Naming.node domain
  addr_ne_domain : Naming.node "addr.reverse" ≠ Naming.node domain
  addr_ne_reverse : Naming.node "addr.reverse" ≠ Naming.node "reverse"

variable {domain}

theorem node_domain (hlabel : Naming.IsLabel "" domain) :
    Naming.node domain = Naming.child (Naming.node "") domain :=
  Naming.node_join_of_isLabel hlabel

theorem node_reverse : Naming.node "reverse" = Naming.child (Naming.node "") "reverse" :=
  node_domain (by decide)

theorem node_addr : Naming.node "addr.reverse" = Naming.child (Naming.node "reverse") "addr" := by
  have hlabel : Naming.IsLabel "reverse" "addr" := by decide
  rw [← Naming.node_join_of_isLabel hlabel]
  rfl

/-- Nodes that are hashed tell their parents and their labels. -/
theorem CollisionFree.child_inj {deployer : Address} (h : CollisionFree deployer domain)
    {parent parent' : Node} {label label' : String}
    (hmem : parent.toList ++ (Naming.labelHash label).toList ∈ hashed domain)
    (hmem' : parent'.toList ++ (Naming.labelHash label').toList ∈ hashed domain)
    (hsame : Naming.child parent label = Naming.child parent' label') :
    parent = parent' ∧ Naming.labelHash label = Naming.labelHash label' :=
  FixedBytes.append_inj (h.digests _ hmem _ hmem' hsame)

theorem CollisionFree.apart {deployer : Address} (h : CollisionFree deployer domain)
    (hlabel : Naming.IsLabel "" domain) (hdomain : domain ≠ "reverse") : Apart domain := by
  have hbelow : (Naming.node "").toList ++ (Naming.labelHash domain).toList ∈ hashed domain := by
    simp [hashed]
  have hreverse : (Naming.node "").toList ++ (Naming.labelHash "reverse").toList ∈
      hashed domain := by simp [hashed]
  have haddr : (Naming.node "reverse").toList ++ (Naming.labelHash "addr").toList ∈
      hashed domain := by simp [hashed]
  have hne : Naming.node "reverse" ≠ Naming.node "" := by
    rw [node_reverse]
    exact h.root _ hreverse
  refine ⟨?_, hne, ?_, fun hsame => ?_, fun hsame => ?_, fun hsame => ?_⟩
  · rw [node_domain hlabel]
    exact h.root _ hbelow
  · rw [node_addr]
    exact h.root _ haddr
  · rw [node_reverse, node_domain hlabel] at hsame
    have hlabels := (h.child_inj hreverse hbelow hsame).2
    have hbytes := h.digests _ (by simp [hashed]) _ (by simp [hashed]) hlabels
    exact hdomain (Hex.bytesOf_injective hbytes).symm
  · rw [node_addr, node_domain hlabel] at hsame
    exact hne (h.child_inj haddr hbelow hsame).1
  · -- the node of `reverse` cannot be written as a child of the root on one side only
    have hroot : Naming.child (Naming.node "reverse") "addr" =
        Naming.child (Naming.node "") "reverse" := by
      rw [← node_addr, hsame, node_reverse]
    exact hne (h.child_inj haddr hreverse hroot).1

/-! ## The contracts -/

open Simulated (World State)
open Run (Scene Passes)

/-- The addresses of the contracts that the wiring is about. -/
structure Parts where
  naming : Address
  resolver : Address
  registrar : Address
  controller : Address
  reverse : Address

/-- The contracts are found by the names of their components. -/
structure Parts.FoundIn (a : Parts) (registry : Registry) : Prop where
  naming : registry.address "ENSRegistry" = .ok a.naming
  resolver : registry.address "PublicResolver" = .ok a.resolver
  registrar : registry.address "BaseRegistrarImplementation" = .ok a.registrar
  controller : registry.address "ETHRegistrarController" = .ok a.controller
  reverse : registry.address "ReverseRegistrar" = .ok a.reverse

/-- The contracts are those of the account, the resolver points at the naming registry, and the
account owns the root. -/
structure Ready (deployer : Address) (a : Parts) (state : State) : Prop where
  naming : ∃ contract, state.contracts.get? a.naming = some contract
  resolver : ∃ contract, state.contracts.get? a.resolver = some contract ∧
    contract.registry? = some a.naming
  registrar : ∃ contract, state.contracts.get? a.registrar = some contract ∧
    contract.creator = deployer
  root : state.ownerOf a.naming (Naming.node "") = deployer

/-! ## What the wiring does -/

/-- The steps up to the interface of the domain, for which the domain has to be waited for. -/
def publishing (domain : String) : List WiringStep :=
  [ .assignSubnode "" domain .deployer,
    .awaitPropagation domain .deployer,
    .bindResolver domain (.component "PublicResolver"),
    .bindInterface (.component "PublicResolver") domain controllerInterface
      (.component "ETHRegistrarController") ]

/-- The steps that hand the domain over to its registrar. -/
def handing (domain : String) : List WiringStep :=
  [ .assignSubnode "" domain (.component "BaseRegistrarImplementation"),
    .authorizeController (.component "BaseRegistrarImplementation")
      (.component "ETHRegistrarController") ]

/-- The steps for the reverse registrar. -/
def reversing : List WiringStep :=
  [ .assignSubnode "" "reverse" .deployer,
    .awaitPropagation "reverse" .deployer,
    .assignSubnode "reverse" "addr" (.component "ReverseRegistrar") ]

theorem wiring_eq (domain : String) :
    wiring domain = publishing domain ++ (handing domain ++ reversing) := rfl

/-- The account takes the domain, binds its resolver and publishes the controller. -/
def published (deployer : Address) (domain : String) (a : Parts) (state : State) : State :=
  ((state.apply a.naming
      (.setSubnodeOwner (Naming.node "") (Naming.labelHash domain) deployer)).apply
    a.naming (.setResolver (Naming.node domain) a.resolver)).apply
    a.resolver (.setInterface (Naming.node domain) controllerInterface a.controller)

/-- The registrar gets the domain, and the controller may act on the registrar. -/
def handedOver (domain : String) (a : Parts) (state : State) : State :=
  (state.apply a.naming
      (.setSubnodeOwner (Naming.node "") (Naming.labelHash domain) a.registrar)).apply
    a.registrar (.addController a.controller)

/-- The account takes the parent of `addr.reverse`, which the reverse registrar gets. -/
def reversed (deployer : Address) (a : Parts) (state : State) : State :=
  (state.apply a.naming
      (.setSubnodeOwner (Naming.node "") (Naming.labelHash "reverse") deployer)).apply
    a.naming (.setSubnodeOwner (Naming.node "reverse") (Naming.labelHash "addr") a.reverse)

section Effects

variable {deployer : Address} {a : Parts} {state : State}

/-- Who owns what after a node is given to somebody. -/
theorem ownerOf_given {parent path label : String}
    (hpath : Naming.node path = Naming.child (Naming.node parent) label) (naming owner : Address)
    (node : Node) :
    (state.apply naming (.setSubnodeOwner (Naming.node parent) (Naming.labelHash label)
      owner)).ownerOf naming node =
        if Naming.node path = node then owner else state.ownerOf naming node := by
  rw [hpath]
  exact Simulated.ownerOf_apply ..

theorem ownerOf_published (hlabel : Naming.IsLabel "" domain) (node : Node) :
    (published deployer domain a state).ownerOf a.naming node =
      if Naming.node domain = node then deployer else state.ownerOf a.naming node :=
  ownerOf_given (node_domain hlabel) ..

theorem ownerOf_handedOver (hlabel : Naming.IsLabel "" domain) (node : Node) :
    (handedOver domain a state).ownerOf a.naming node =
      if Naming.node domain = node then a.registrar else state.ownerOf a.naming node :=
  ownerOf_given (node_domain hlabel) ..

theorem ownerOf_reversed (node : Node) :
    (reversed deployer a state).ownerOf a.naming node =
      if Naming.node "addr.reverse" = node then a.reverse
      else if Naming.node "reverse" = node then deployer
      else state.ownerOf a.naming node := by
  rw [reversed, ownerOf_given node_addr, ownerOf_given node_reverse]

theorem Ready.of_same {state' : State} (h : Ready deployer a state)
    (hcontracts : state'.contracts = state.contracts)
    (hroot : state'.ownerOf a.naming (Naming.node "") = state.ownerOf a.naming (Naming.node "")) :
    Ready deployer a state' where
  naming := hcontracts ▸ h.naming
  resolver := hcontracts ▸ h.resolver
  registrar := hcontracts ▸ h.registrar
  root := hroot.trans h.root

theorem ready_published (h : Ready deployer a state) (hlabel : Naming.IsLabel "" domain)
    (hapart : Apart domain) : Ready deployer a (published deployer domain a state) :=
  h.of_same rfl ((ownerOf_published hlabel _).trans (if_neg hapart.domain_ne_root))

theorem ready_handedOver (h : Ready deployer a state) (hlabel : Naming.IsLabel "" domain)
    (hapart : Apart domain) : Ready deployer a (handedOver domain a state) :=
  h.of_same rfl ((ownerOf_handedOver hlabel _).trans (if_neg hapart.domain_ne_root))

end Effects

/-! ## The wiring -/

section Wiring

variable {deployer : Address} {a : Parts} {state : State} {lag timeoutSecs : Nat} {precheck : Bool}
  {registry : Registry} {t : Session World} {policy : PropagationPolicy}

/-- The desk of the naming registry. -/
def desk (a : Parts) (timeoutSecs : Nat) (precheck : Bool) : Run.Desk :=
  ⟨a.naming, timeoutSecs, precheck⟩

theorem resolve_component {name : String} {address : Address}
    (h : registry.address name = .ok address) :
    Run.resolvePrincipal deployer registry (.component name) = .ok address := h

/-- The domain belongs to the account, its resolver is set and the controller published, if the
account sees in time that it owns the domain. -/
theorem passes_publishing (h : Ready deployer a state) (hfound : a.FoundIn registry)
    (hlabel : Naming.IsLabel "" domain) (hmode : policy.mode = .poll)
    (hinterval : 0 < policy.pollIntervalMs)
    (hfits : lag * policy.pollIntervalMs ≤ 1000 * policy.timeoutSecs)
    (hscene : Scene (desk a timeoutSecs precheck).registry lag state [] t)
    (hother : state.ownerOf a.naming (Naming.node domain) ≠ deployer) :
    ∃ t', Passes (Simulated.ledger deployer) (desk a timeoutSecs precheck) policy registry
        (publishing domain) t t' ∧
      Scene (desk a timeoutSecs precheck).registry lag (published deployer domain a state) []
        t' := by
  obtain ⟨naming, hnaming⟩ := h.naming
  obtain ⟨resolver, hresolver, hpoints⟩ := h.resolver
  obtain ⟨t₁, hacquired, hscene⟩ := (hscene.acquire policy registry hmode hinterval hnaming h.root
    List.not_mem_nil (node_domain hlabel) List.not_mem_nil hother).1 hfits
  have howner : (state.apply a.naming (.setSubnodeOwner (Naming.node "") (Naming.labelHash domain)
      deployer)).ownerOf a.naming (Naming.node domain) = deployer :=
    (ownerOf_given (node_domain hlabel) ..).trans (if_pos rfl)
  obtain ⟨t₂, hbound, hscene⟩ := hscene.bindResolver policy hnaming howner List.not_mem_nil
    (resolve_component hfound.resolver)
  obtain ⟨t₃, hpublished, hscene⟩ := hscene.bindInterface policy hresolver hpoints howner
    List.not_mem_nil (resolve_component hfound.resolver) (resolve_component hfound.controller)
  exact ⟨t₃, hacquired.append (hbound.append hpublished), hscene⟩

/-- The wait for the domain fails, if the account does not see in time that it owns the domain. -/
theorem timeout_publishing (h : Ready deployer a state) (registry : Registry)
    (hlabel : Naming.IsLabel "" domain) (hmode : policy.mode = .poll)
    (hinterval : 0 < policy.pollIntervalMs)
    (hlate : 1000 * policy.timeoutSecs < lag * policy.pollIntervalMs)
    (hscene : Scene (desk a timeoutSecs precheck).registry lag state [] t)
    (hother : state.ownerOf a.naming (Naming.node domain) ≠ deployer) :
    ∃ u t', Passes (Simulated.ledger deployer) (desk a timeoutSecs precheck) policy registry
        [.assignSubnode "" domain .deployer] t u ∧
      Run.takeStep (Simulated.ledger deployer) (desk a timeoutSecs precheck) policy registry
          (.awaitPropagation domain .deployer) u =
        (.error (.confirmationTimeout (.propagation (Naming.node domain) deployer)
          policy.timeoutSecs none none), t') := by
  obtain ⟨naming, hnaming⟩ := h.naming
  exact (hscene.acquire policy registry hmode hinterval hnaming h.root List.not_mem_nil
    (node_domain hlabel) List.not_mem_nil hother).2 hlate

/-- The registrar gets the domain, whose owner reads may then still show as before. -/
theorem passes_handing (h : Ready deployer a state) (hfound : a.FoundIn registry)
    (hlabel : Naming.IsLabel "" domain)
    (hscene : Scene (desk a timeoutSecs precheck).registry lag state [] t) :
    ∃ t', Passes (Simulated.ledger deployer) (desk a timeoutSecs precheck) policy registry
        (handing domain) t t' ∧
      Scene (desk a timeoutSecs precheck).registry lag (handedOver domain a state)
        [Naming.node domain] t' := by
  obtain ⟨naming, hnaming⟩ := h.naming
  obtain ⟨registrar, hregistrar, hcreator⟩ := h.registrar
  obtain ⟨t₁, hassigned, hscene, -⟩ := hscene.assignSubnode policy domain hnaming h.root
    List.not_mem_nil (resolve_component hfound.registrar)
  obtain ⟨t₂, hauthorized, hscene⟩ := hscene.authorizeController policy hregistrar hcreator
    (resolve_component hfound.registrar) (resolve_component hfound.controller)
  rw [← node_domain hlabel] at hscene
  exact ⟨t₂, hassigned.append hauthorized, hscene⟩

/-- The reverse registrar gets its node, whatever reads show of the domain by then. -/
theorem passes_reversing (h : Ready deployer a state) (hfound : a.FoundIn registry)
    (hapart : Apart domain) (hmode : policy.mode = .poll) (hinterval : 0 < policy.pollIntervalMs)
    (hfits : lag * policy.pollIntervalMs ≤ 1000 * policy.timeoutSecs)
    (hscene : Scene (desk a timeoutSecs precheck).registry lag state [Naming.node domain] t)
    (hother : state.ownerOf a.naming (Naming.node "reverse") ≠ deployer) :
    ∃ unsettled t', Passes (Simulated.ledger deployer) (desk a timeoutSecs precheck) policy registry
        reversing t t' ∧
      Scene (desk a timeoutSecs precheck).registry lag (reversed deployer a state) unsettled t' := by
  obtain ⟨naming, hnaming⟩ := h.naming
  have hroot : Naming.node "" ∉ [Naming.node domain] :=
    List.not_mem_cons_of_ne_of_not_mem hapart.domain_ne_root.symm List.not_mem_nil
  have hreverse : Naming.node "reverse" ∉ [Naming.node domain] :=
    List.not_mem_cons_of_ne_of_not_mem hapart.reverse_ne_domain List.not_mem_nil
  obtain ⟨t₁, hacquired, hscene⟩ := (hscene.acquire policy registry hmode hinterval hnaming h.root
    hroot node_reverse hreverse hother).1 hfits
  have howner : (state.apply a.naming (.setSubnodeOwner (Naming.node "")
      (Naming.labelHash "reverse") deployer)).ownerOf a.naming (Naming.node "reverse") =
        deployer := (ownerOf_given node_reverse ..).trans (if_pos rfl)
  obtain ⟨t₂, hassigned, hscene, -⟩ := hscene.assignSubnode policy "addr" hnaming howner hreverse
    (resolve_component hfound.reverse)
  exact ⟨_, t₂, hacquired.append hassigned, hscene⟩

/-- What the whole wiring does. -/
def wired (deployer : Address) (domain : String) (a : Parts) (state : State) : State :=
  reversed deployer a (handedOver domain a (published deployer domain a state))

/-- **The whole wiring goes well**, if what the account takes for itself becomes visible in time. -/
theorem passes_wiring (h : Ready deployer a state) (hfound : a.FoundIn registry)
    (hlabel : Naming.IsLabel "" domain) (hapart : Apart domain) (hmode : policy.mode = .poll)
    (hinterval : 0 < policy.pollIntervalMs)
    (hfits : lag * policy.pollIntervalMs ≤ 1000 * policy.timeoutSecs)
    (hscene : Scene (desk a timeoutSecs precheck).registry lag state [] t)
    (hdomain : state.ownerOf a.naming (Naming.node domain) ≠ deployer)
    (hreverse : state.ownerOf a.naming (Naming.node "reverse") ≠ deployer) :
    ∃ unsettled t', Passes (Simulated.ledger deployer) (desk a timeoutSecs precheck) policy registry
        (wiring domain) t t' ∧
      Scene (desk a timeoutSecs precheck).registry lag (wired deployer domain a state) unsettled
        t' := by
  have hpublished := ready_published h hlabel hapart
  have hhanded := ready_handedOver hpublished hlabel hapart
  have hother : (handedOver domain a (published deployer domain a state)).ownerOf a.naming
      (Naming.node "reverse") ≠ deployer := by
    rw [ownerOf_handedOver hlabel, if_neg hapart.reverse_ne_domain.symm, ownerOf_published hlabel,
      if_neg hapart.reverse_ne_domain.symm]
    exact hreverse
  obtain ⟨t₁, hpublishing, hscene⟩ :=
    passes_publishing h hfound hlabel hmode hinterval hfits hscene hdomain
  obtain ⟨t₂, hhanding, hscene⟩ := passes_handing hpublished hfound hlabel hscene
  obtain ⟨unsettled, t₃, hreversing, hscene⟩ :=
    passes_reversing hhanded hfound hapart hmode hinterval hfits hscene hother
  rw [wiring_eq]
  exact ⟨unsettled, t₃, hpublishing.append (hhanding.append hreversing), hscene⟩

end Wiring

/-! ## What stands in the end -/

/-- **The naming system stands**: the registrar owns the domain, which has its resolver and its
published controller; that controller alone may act on the registrar; the reverse registrar owns its
node; and the account keeps the root and the parent of that node. -/
structure Established (deployer : Address) (domain : String) (a : Parts) (state : State) : Prop where
  owner : state.ownerOf a.naming (Naming.node domain) = a.registrar
  resolver : state.resolvers.get? (a.naming, Naming.node domain) = some a.resolver
  interface : state.interfaces.get? (a.resolver, Naming.node domain, controllerInterface) =
    some a.controller
  controllers : state.controllersOf a.registrar = [a.controller]
  reverse : state.ownerOf a.naming (Naming.node "reverse") = deployer
  addr : state.ownerOf a.naming (Naming.node "addr.reverse") = a.reverse
  root : state.ownerOf a.naming (Naming.node "") = deployer

section Established

variable {deployer : Address} {a : Parts} {state : State}

theorem established_wired (h : Ready deployer a state) (hlabel : Naming.IsLabel "" domain)
    (hapart : Apart domain) (hnone : state.controllersOf a.registrar = []) :
    Established deployer domain a (wired deployer domain a state) where
  owner := by
    rw [wired, ownerOf_reversed, if_neg hapart.addr_ne_domain, if_neg hapart.reverse_ne_domain,
      ownerOf_handedOver hlabel, if_pos rfl]
  resolver := (Assoc.get?_insert ..).trans (if_pos rfl)
  interface := (Assoc.get?_insert ..).trans (if_pos rfl)
  controllers := by
    have hadded : (wired deployer domain a state).controllers =
        state.controllers.insert a.registrar (state.controllersOf a.registrar ++ [a.controller]) :=
      rfl
    rw [Simulated.State.controllersOf, hadded, Assoc.get?_insert, if_pos rfl, hnone]
    rfl
  reverse := by
    rw [wired, ownerOf_reversed, if_neg hapart.addr_ne_reverse, if_pos rfl]
  addr := by
    rw [wired, ownerOf_reversed, if_pos rfl]
  root := by
    rw [wired, ownerOf_reversed, if_neg hapart.addr_ne_root, if_neg hapart.reverse_ne_root]
    exact (ready_handedOver (ready_published h hlabel hapart) hlabel hapart).root

end Established

/-! ## The deployment -/

/-- The contracts that the preset deploys for an account, by their places in the plan. -/
def parts (deployer : Address) : Parts where
  naming := deployer.ofCreation 0
  resolver := deployer.ofCreation 2
  registrar := deployer.ofCreation 3
  controller := deployer.ofCreation 5
  reverse := deployer.ofCreation 7

section Deployment

variable {pricing} {deployer : Address} {registry : Registry} {made : List (Creation × Resource)}

theorem foundIn_of_made (h : Run.Made deployer {} (components domain pricing) registry made) :
    (parts deployer).FoundIn registry where
  naming := h.address_of_get (nodup_components domain pricing) (fun _ _ => rfl) (k := 0) rfl
  resolver := h.address_of_get (nodup_components domain pricing) (fun _ _ => rfl) (k := 2) rfl
  registrar := h.address_of_get (nodup_components domain pricing) (fun _ _ => rfl) (k := 3) rfl
  controller := h.address_of_get (nodup_components domain pricing) (fun _ _ => rfl) (k := 5) rfl
  reverse := h.address_of_get (nodup_components domain pricing) (fun _ _ => rfl) (k := 7) rfl

theorem ready_of_made (h : Run.Made deployer {} (components domain pricing) registry made)
    (hdistinct : ∀ i j, i < 8 → j < 8 → deployer.ofCreation i = deployer.ofCreation j → i = j) :
    Ready deployer (parts deployer) (Run.built deployer made) := by
  have hlength : made.length ≤ 8 := Nat.le_of_eq h.forall₂.length_eq.symm
  obtain ⟨_, -, hnaming⟩ := h.contract_of_get hlength hdistinct (k := 0) rfl
  obtain ⟨args, hargs, hresolver⟩ := h.contract_of_get hlength hdistinct (k := 2) rfl
  obtain ⟨_, -, hregistrar⟩ := h.contract_of_get hlength hdistinct (k := 3) rfl
  -- the resolver is created with the naming registry
  have hpoints : args = [.address (parts deployer).naming] := by
    have hnamed : Run.resolveArguments registry deployer [.component "ENSRegistry"] =
        .ok [.address (parts deployer).naming] := by
      simp [Run.resolveArguments, Run.resolveArgument, (foundIn_of_made h).naming, Except.map]
    exact Except.ok.inj (hargs.symm.trans hnamed)
  refine ⟨⟨_, hnaming⟩, ⟨_, hresolver, ?_⟩, ⟨_, hregistrar, rfl⟩, ?_⟩
  · rw [hpoints]
    rfl
  · exact Simulated.ownerOf_root rfl hnaming

/-- Nobody owns a node other than the root before the wiring. -/
theorem ownerOf_built (naming : Address) {node : Node} (hnode : node ≠ Naming.node "") :
    (Run.built deployer made).ownerOf naming node = FixedBytes.zero 20 :=
  if_neg hnode

end Deployment

/-! ## The whole run -/

section Run

variable {pricing} {deployer : Address} {lag : Nat} {settings : Settings} {s : Session World}

/-- **How the run of the preset ends**: everything stands, or the wait for the domain has failed. -/
inductive Ended (deployer : Address) (domain : String) (lag : Nat) (policy : PropagationPolicy) :
    Except Failure Report → State → Prop where
  | complete {report : Report} {a : Parts} {state : State}
      (hfits : lag * policy.pollIntervalMs ≤ 1000 * policy.timeoutSecs)
      (hfound : a.FoundIn ⟨report.resources⟩) (hstands : Established deployer domain a state) :
      Ended deployer domain lag policy (.ok report) state
  | timeout {failure : Failure} {state : State}
      (hlate : 1000 * policy.timeoutSecs < lag * policy.pollIntervalMs)
      (hstep : failure.failedStep = .wiring 1)
      (herror : failure.error = .confirmationTimeout
        (.propagation (Naming.node domain) deployer) policy.timeoutSecs none none) :
      Ended deployer domain lag policy (.error failure) state

/-- With all contracts deployed, the naming registry is at its desk. -/
theorem wire_preset {p : Run.Progress} (hfound : (parts deployer).FoundIn p.registry)
    (t : Session World) :
    Run.wire (Simulated.ledger deployer) (plan domain pricing) settings p t =
      Run.inOrder (Run.wireNext (Simulated.ledger deployer)
        (desk (parts deployer) settings.confirmation.timeoutSecs settings.precheck)
        settings.propagation) 0 (wiring domain) p t := by
  simp only [Run.wire, plan, hfound.naming]
  rfl

theorem ended_wire {p : Run.Progress} {t : Session World} {made : List (Creation × Resource)}
    (hlabel : Naming.IsLabel "" domain) (hapart : Apart domain)
    (hdeployer : deployer ≠ FixedBytes.zero 20)
    (hdistinct : ∀ i j, i < 8 → j < 8 → deployer.ofCreation i = deployer.ofCreation j → i = j)
    (hmode : settings.propagation.mode = .poll) (hinterval : 0 < settings.propagation.pollIntervalMs)
    (hmade : Run.Made deployer {} (components domain pricing) p.registry made)
    (hscene : Scene (parts deployer).naming lag (Run.built deployer made) [] t) :
    Ended deployer domain lag settings.propagation
      ((Run.wire (Simulated.ledger deployer) (plan domain pricing) settings p t).1.map
        Run.Progress.report)
      (Run.wire (Simulated.ledger deployer) (plan domain pricing) settings p t).2.ledger.state := by
  have hfound := foundIn_of_made hmade
  have hready := ready_of_made hmade hdistinct
  have hother : ∀ {node}, node ≠ Naming.node "" →
      (Run.built deployer made).ownerOf (parts deployer).naming node ≠ deployer := by
    intro node hnode
    rw [ownerOf_built _ hnode]
    exact hdeployer.symm
  have hdesk : Scene (desk (parts deployer) settings.confirmation.timeoutSecs
      settings.precheck).registry lag (Run.built deployer made) [] t := hscene
  rw [wire_preset hfound]
  rcases Nat.lt_or_ge (1000 * settings.propagation.timeoutSecs)
    (lag * settings.propagation.pollIntervalMs) with hlate | hfits
  · obtain ⟨u, t', hassigned, htimeout⟩ := timeout_publishing hready p.registry hlabel hmode
      hinterval hlate hdesk (hother hapart.domain_ne_root)
    obtain ⟨q, hfailed⟩ := hassigned.fail htimeout rfl
    have hpart : [.assignSubnode "" domain .deployer] ++ [.awaitPropagation domain .deployer] <+:
        wiring domain := ⟨_, rfl⟩
    rw [Run.inOrder_of_part hpart hfailed]
    exact .timeout hlate rfl rfl
  · obtain ⟨unsettled, t', hpasses, hend⟩ := passes_wiring hready hfound hlabel hapart hmode
      hinterval hfits hdesk (hother hapart.domain_ne_root) (hother hapart.reverse_ne_root)
    obtain ⟨q, hq, hrun⟩ := hpasses 0 p rfl
    have hstands := established_wired hready hlabel hapart rfl
    rw [← hend.holdings] at hstands
    rw [← hq] at hfound
    rw [hrun]
    exact .complete hfits hfound { hstands with }

theorem ended_run (pricing : Pricing) (hlabel : Naming.IsLabel "" domain)
    (hdomain : domain ≠ "reverse")
    (hdeployer : deployer ≠ FixedBytes.zero 20) (hfree : CollisionFree deployer domain)
    (hidle : Run.Idle s) (hledger : s.ledger = { faults := { lag } })
    (hmode : settings.propagation.mode = .poll)
    (hinterval : 0 < settings.propagation.pollIntervalMs) :
    Ended deployer domain lag settings.propagation
      (Run.run (Simulated.ledger deployer) (plan domain pricing) settings {} s).1
      (Run.run (Simulated.ledger deployer) (plan domain pricing) settings {} s).2.ledger.state := by
  have hchecked : (plan domain pricing).Checked := Plan.checked_of_make (plan_preset domain pricing)
  have hfaults : s.ledger.faults = { lag } := by rw [hledger]
  have hfresh : s.ledger.state = {} := by rw [hledger]
  have hstart : ∀ c ∈ (plan domain pricing).components, Registry.contains {} c.name = false :=
    fun _ _ => rfl
  obtain ⟨p, t, hrun, hflawless⟩ :=
    Run.deployed_of_faultless hchecked hidle hfaults hfresh hstart hfree.addresses
  obtain ⟨hfaults, -, made, hmade, hholdings⟩ := hflawless.built
  have hscene : Scene (parts deployer).naming lag (Run.built deployer made) [] t :=
    ⟨hflawless.idle, hfaults, hholdings, fun _ _ => by rw [hflawless.current]; rfl⟩
  rw [Run.run_of_deployed hrun]
  exact ended_wire hlabel (hfree.apart hlabel hdomain) hdeployer hfree.addresses hmode hinterval
    hmade hscene

/-- **The preset sets up its naming system, if the ledger shows owners in time.**  On a fresh ledger
whose only fault is that it lags, the run of the preset completes exactly if as many pauses as the
ledger lags fit into the time for propagation; else it fails in its second step, the wait for the
domain. -/
theorem preset_run (pricing : Pricing) (hempty : domain ≠ "") (hdots : '.' ∉ domain.toList)
    (hdomain : domain ≠ "reverse") (hdeployer : deployer ≠ FixedBytes.zero 20)
    (hfree : CollisionFree deployer domain) (hidle : Run.Idle s)
    (hledger : s.ledger = { faults := { lag } }) (hmode : settings.propagation.mode = .poll)
    (hinterval : 0 < settings.propagation.pollIntervalMs) :
    ∃ plan outcome t, (Config.preset domain pricing).plan = .ok plan ∧
      Run.run (Simulated.ledger deployer) plan settings {} s = (outcome, t) ∧
      ((∃ report, outcome = .ok report) ↔
        lag * settings.propagation.pollIntervalMs ≤ 1000 * settings.propagation.timeoutSecs) ∧
      (∀ report, outcome = .ok report → ∃ a : Parts, a.FoundIn ⟨report.resources⟩ ∧
        Established deployer domain a t.ledger.state) ∧
      ∀ failure, outcome = .error failure → failure.failedStep = .wiring 1 ∧
        failure.error = .confirmationTimeout (.propagation (Naming.node domain) deployer)
          settings.propagation.timeoutSecs none none := by
  have hlabel : Naming.IsLabel "" domain := ⟨.inr hempty, hdots⟩
  have hended := ended_run pricing hlabel hdomain hdeployer hfree hidle hledger hmode hinterval
  rcases hrun : Run.run (Simulated.ledger deployer) (plan domain pricing) settings {} s with
    ⟨outcome, t⟩
  rw [hrun] at hended
  refine ⟨plan domain pricing, outcome, t, plan_preset domain pricing, hrun, ?_⟩
  clear hrun
  cases hended with
  | @complete report a _ hfits hfound hstands =>
    refine ⟨⟨fun _ => hfits, fun _ => ⟨report, rfl⟩⟩, fun r hr => ?_, fun f hf => ?_⟩
    · obtain rfl := Except.ok.inj hr
      exact ⟨a, hfound, hstands⟩
    · cases hf
  | @timeout failure _ hlate hstep herror =>
    refine ⟨⟨fun ⟨r, hr⟩ => ?_, fun hfits => ?_⟩, fun r hr => ?_, fun f hf => ?_⟩
    · cases hr
    · exact absurd hfits (Nat.not_le_of_lt hlate)
    · cases hr
    · obtain rfl := Except.error.inj hf
      exact ⟨hstep, herror⟩

/-- Digests of short strings tell whether something collides. -/
theorem collisionFree_of_nodup (hlength : ∀ x ∈ hashed domain, x.length < Keccak.rate)
    (hnodup : ((Naming.node "").toList :: (hashed domain).map Keccak.shortDigest).Nodup)
    (haddresses : ∀ i j, i < 8 → j < 8 → deployer.ofCreation i = deployer.ofCreation j → i = j) :
    CollisionFree deployer domain where
  digests := Keccak.digest_inj_of_nodup hlength (List.nodup_cons.1 hnodup).2
  root x hx hsame := by
    refine (List.nodup_cons.1 hnodup).1 (List.mem_map.2 ⟨x, hx, ?_⟩)
    rw [← Keccak.toList_digest (hlength x hx), hsame]
  addresses := haddresses

theorem collisionFree_eth : CollisionFree Address.defaultDeployer "eth" := by
  have hbytes : ∀ label ∈ ["eth", "reverse", "addr"], (Hex.bytesOf label).length < Keccak.rate := by
    decide +kernel
  have heth := hbytes "eth" (by simp)
  have hreverse := hbytes "reverse" (by simp)
  have haddr := hbytes "addr" (by simp)
  refine collisionFree_of_nodup ?_ ?_ Address.ofCreation_inj_defaultDeployer
  · simp [hashed, heth, hreverse, haddr, FixedBytes.length_toList]
    decide
  · simp only [hashed, node_reverse, Naming.toList_child _ hreverse, Naming.toList_labelHash heth,
      Naming.toList_labelHash hreverse, Naming.toList_labelHash haddr]
    decide +kernel

theorem preset_run_eth :
    CollisionFree Address.defaultDeployer "eth" ∧ ∃ plan report t a,
      (Config.preset "eth" .default).plan = .ok plan ∧
      Run.run (Simulated.ledger Address.defaultDeployer) plan {} {}
        { ledger := { faults := { lag := 2 } } } = (.ok report, t) ∧
      Parts.FoundIn a ⟨report.resources⟩ ∧
      Established Address.defaultDeployer "eth" a t.ledger.state := by
  have hmode : ({} : Settings).propagation.mode = .poll := rfl
  have hinterval : 0 < ({} : Settings).propagation.pollIntervalMs := by decide
  obtain ⟨plan, outcome, t, hplan, hrun, hcompletes, hstands, -⟩ :=
    preset_run (s := { ledger := { faults := { lag := 2 } } }) .default (by decide) (by decide)
      (by decide) (by decide) collisionFree_eth rfl rfl hmode hinterval
  obtain ⟨report, rfl⟩ := hcompletes.2 (by decide)
  obtain ⟨a, hfound, hestablished⟩ := hstands report rfl
  exact ⟨collisionFree_eth, plan, report, t, a, hplan, hrun, hfound, hestablished⟩

end Run

end Config.Preset

end Rollout
