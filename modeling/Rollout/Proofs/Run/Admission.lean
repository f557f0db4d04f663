import Rollout.Proofs.Ledger.Owners
import Rollout.Proofs.Run.Precheck

/-!
# Proofs/Run/Admission — what the check beforehand lets through

The check costs one read, and unless that read makes the token fire, nothing that comes after it
notices (`Oblivious`).  So an operation whose check passes does what it does without the check, and
one whose check fails submits nothing (`unhindered_of_owner`, `stopped_of_stranger`).

On a ledger that never lagged, the check goes by the owner as it is in the naming registry.  That is
whom the ledger asks for as well, if the call goes to the naming registry or to a resolver that
points at it.  A call to any other resolver is decided by another registry, and there the check may
stop what the ledger would carry out (`admits_play`).
-/

namespace Rollout.Simulated

variable {deployer : Address} {w : World} {e : Event} {history : List Event}

/-! ## Histories without delays -/

/-- An event that does not make the ledger lag. -/
def Event.Prompt (e : Event) : Prop :=
  ∀ reads, e = .set (.lag reads) → reads = 0

/-- Reads that work have always worked. -/
theorem readable_of_step (h : (w.step deployer e).faults.unreadable = false) :
    w.faults.unreadable = false := by
  cases e with
  | submit request => rwa [World.step, faults_submit] at h
  | await transaction limit => rwa [World.step, stateAfter_await] at h
  | read registry node => rwa [World.step, (alike_owner registry node w).faults] at h
  | set switch =>
    cases switch with
    | blind => cases h
    | _ => exact h

theorem Candid.step (h : Candid w) (hprompt : e.Prompt)
    (hreadable : (w.step deployer e).faults.unreadable = false) : Candid (w.step deployer e) := by
  cases e with
  | submit request => exact h.submit deployer request
  | await transaction limit =>
    rw [World.step, stateAfter_await]
    exact h
  | read registry node =>
    rw [World.step, owner_of_read h.readable (h.read registry node)]
    exact h
  | set switch =>
    cases switch with
    | lag reads => exact ⟨hprompt reads rfl, h.readable, h.current⟩
    | blind => cases hreadable
    | _ => exact ⟨h.lag, h.readable, h.current⟩

/-- **A ledger that never lagged shows every owner as it is**, as long as reads work. -/
theorem candid_play (hprompt : ∀ e ∈ history, e.Prompt)
    (hreadable : (World.play deployer {} history).faults.unreadable = false) :
    Candid (World.play deployer {} history) := by
  induction history using List.reverseRecOn with
  | nil => exact ⟨rfl, rfl, rfl⟩
  | append_singleton earlier e ih =>
    rw [World.play_append, World.play_singleton] at hreadable ⊢
    have hearlier : Candid (World.play deployer {} earlier) :=
      ih (fun e he => hprompt e (List.mem_append_left _ he)) (readable_of_step hreadable)
    exact hearlier.step (hprompt e (by simp)) hreadable

end Rollout.Simulated

namespace Rollout.Run

open Simulated (World State Candid Event Granted)

variable {σ α β : Type} {l : Ledger σ}

/-! ## Reads that go unnoticed -/

/-- The same session, but for the number of reads and of those that the token still waits for. -/
def reread (s : Session σ) (reads : Nat) (left : Option Nat) : Session σ :=
  { s with reads, token := { s.token with readsLeft := left } }

/-- An action that does not notice reads: it does the same whatever was read before. -/
def Oblivious (x : Action σ α) : Prop :=
  ∀ s reads left, x (reread s reads left) = ((x s).1, reread (x s).2 reads left)

theorem reread_advance (s : Session σ) (milliseconds reads : Nat) (left : Option Nat) :
    (reread s reads left).advance milliseconds = reread (s.advance milliseconds) reads left := by
  obtain ⟨ledger, clock, ⟨fired, alarm, submissionsLeft, readsLeft, looksLeft⟩, submissions, _⟩ := s
  cases alarm with
  | none => rfl
  | some instant =>
    by_cases hdue : instant ≤ clock + milliseconds <;>
      simp [Session.advance, Token.reach, reread, hdue]

theorem oblivious_ofExcept (result : Except DeployError α) :
    Oblivious (ofExcept result : Action σ α) :=
  fun _ _ _ => rfl

theorem Oblivious.bind {x : Action σ α} {f : α → Action σ β} (hx : Oblivious x)
    (hf : ∀ a, Oblivious (f a)) : Oblivious (x >>= f) := by
  intro s reads left
  rw [bind_apply, bind_apply, hx]
  rcases x s with ⟨e | a, t⟩
  · rfl
  · exact hf a t reads left

theorem oblivious_ensureNotCancelled (operation : Operation) :
    Oblivious (ensureNotCancelled operation : Action σ Unit) := by
  intro s reads left
  have hlook : (reread s reads left).look = reread s.look reads left := rfl
  rw [ensureNotCancelled, ensureNotCancelled, hlook]
  cases hfired : s.look.token.fired <;> simp [reread, hfired]

theorem oblivious_submit (request : Request) (refusal : LedgerError → DeployError) :
    Oblivious (submit l request refusal) :=
  fun _ _ _ => rfl

theorem oblivious_confirm (transaction : Digest) (timeoutSecs : Nat) (operation : Operation) :
    Oblivious (confirm l transaction timeoutSecs operation) := by
  intro s reads left
  have hlook : (reread s reads left).look = reread s.look reads left := rfl
  rw [confirm, confirm, hlook]
  generalize s.look = s
  have hfired : (reread s reads left).token.fired = s.token.fired := rfl
  have hfires : ∀ limit, firesWithin? (reread s reads left) limit = firesWithin? s limit :=
    fun _ => rfl
  have hsettle : ∀ limit, settle? l transaction limit (reread s reads left) =
      settle? l transaction limit s := fun _ => rfl
  have hanswer : ∀ answer, (reread s reads left).settle answer =
      reread (s.settle answer) reads left := fun _ => rfl
  simp only [hfired, hfires, hsettle, hanswer, reread_advance]
  split
  · rfl
  · split
    · split
      · split <;> rfl
      · rfl
    · split <;> rfl

theorem oblivious_execute (d : Desk) (target : Address) (call : Call) (role : AssignmentRole)
    (path : Option String) (assigned : Address) :
    Oblivious (execute l d target call role path assigned) :=
  ((oblivious_ensureNotCancelled _).bind fun _ =>
    (oblivious_submit _ _).bind fun transaction => oblivious_confirm transaction _ _).bind
      fun receipt => oblivious_ofExcept (recordOf target call role path assigned receipt)

/-- The token has not fired, and a read would not make it. -/
def Unfired (s : Session σ) : Prop :=
  (s.advance 0).token.afterRead.fired = false

/-- A read that does not make the token fire changes nothing but the number of reads. -/
theorem afterRead_of_unfired {s : Session σ} (h : Unfired s) :
    ∃ left, { s.advance 0 with token := (s.advance 0).token.afterRead, reads := s.reads + 1 } =
      reread s (s.reads + 1) left := by
  have hadvance : s.advance 0 = s := by
    rw [Unfired, Session.advance, Token.reach] at h
    rw [Session.advance, Token.reach]
    split
    · next instant halarm =>
      rw [halarm] at h
      split
      · next hdue =>
        simp only [if_pos hdue] at h
        simp [Token.afterRead] at h
      · rfl
    · rfl
  rw [Unfired, hadvance] at h
  rw [hadvance]
  refine ⟨(Token.countDown s.token.readsLeft).1, ?_⟩
  simp only [Token.afterRead, Bool.or_eq_false_iff] at h
  simp only [Token.afterRead, reread, h.1, h.2, Bool.or_false]

/-! ## Operations with the check and without it -/

section Check

variable {deployer : Address} {d : Desk} {s t : Session World} {target assigned : Address}
  {call : Call} {role : AssignmentRole} {path : Option String} {node : Node}
  {record : Assignment}

/-- An assignment, made with the check of a node before it if the desk asks for it. -/
def guarded (deployer : Address) (name : String) (node : Node) (target : Address) (call : Call)
    (role : AssignmentRole) (path : Option String) (assigned : Address) (d : Desk) :
    Action World Assignment := do
  ensureAuthority (Simulated.ledger deployer) d name node
  execute (Simulated.ledger deployer) d target call role path assigned

/-- What succeeds without the check succeeds with it, and leaves the same record and the same
ledger behind. -/
def Unhindered (x : Desk → Action World Assignment) (d : Desk) (s : Session World) : Prop :=
  ∀ record t, x (d.checking false) s = (.ok record, t) →
    ∃ t', x (d.checking true) s = (.ok record, t') ∧ t'.ledger = t.ledger ∧
      t'.submissions = t.submissions

/-- The check stops the operation: somebody else owns the node, and nothing is submitted. -/
def Stopped (x : Desk → Action World Assignment) (name : String) (node : Node) (d : Desk)
    (s : Session World) : Prop :=
  ∃ t', x (d.checking true) s =
      (.error (.assignmentRejected name d.registry
        (.notOwner node (s.ledger.state.ownerOf d.registry node))), t') ∧
    t'.ledger = s.ledger ∧ t'.submissions = s.submissions

/-- The check goes by the owner as it is, and costs one read. -/
theorem ensureAuthority_of_candid (deployer : Address) (d : Desk) (hcandid : Candid s.ledger)
    (hunfired : Unfired s) (name : String) (node : Node) :
    ∃ left, ensureAuthority (Simulated.ledger deployer) (d.checking true) name node s =
      (if s.ledger.state.ownerOf d.registry node = deployer then .ok ()
        else .error (.assignmentRejected name d.registry
          (.notOwner node (s.ledger.state.ownerOf d.registry node))),
        reread s (s.reads + 1) left) := by
  obtain ⟨left, hafter⟩ := afterRead_of_unfired hunfired
  have hread : (Simulated.ledger deployer).owner d.registry node s.ledger =
      ⟨.ok (s.ledger.state.ownerOf d.registry node), 0, s.ledger⟩ :=
    Simulated.owner_of_read hcandid.readable (hcandid.read d.registry node)
  have howner : s.owner (Simulated.ledger deployer) d.registry node =
      (.ok (s.ledger.state.ownerOf d.registry node), reread s (s.reads + 1) left) := by
    rw [← hafter, Session.owner, hread]
    rfl
  exact ⟨left, ensureAuthority_of_owner (d := d.checking true) rfl howner name⟩

/-- **The check lets the owner of the node pass**, and what it does then is what it does without
the check. -/
theorem unhindered_of_owner {name : String} (hcandid : Candid s.ledger) (hunfired : Unfired s)
    (howner : s.ledger.state.ownerOf d.registry node = deployer) :
    Unhindered (guarded deployer name node target call role path assigned) d s := by
  intro record t hunchecked
  obtain ⟨left, hcheck⟩ :=
    ensureAuthority_of_candid deployer d hcandid hunfired name node
  rw [if_pos howner] at hcheck
  rw [guarded, bind_of_ok _ (ensureAuthority_of_unchecked rfl name)] at hunchecked
  have hsame := oblivious_execute (l := Simulated.ledger deployer) (d.checking false) target call
    role path assigned s (s.reads + 1) left
  rw [hunchecked] at hsame
  refine ⟨reread t (s.reads + 1) left, ?_, rfl, rfl⟩
  rw [guarded, bind_of_ok _ hcheck]
  exact hsame

/-- **The check stops everybody else**, whatever the ledger would do. -/
theorem stopped_of_stranger {name : String} (hcandid : Candid s.ledger) (hunfired : Unfired s)
    (howner : s.ledger.state.ownerOf d.registry node ≠ deployer) :
    Stopped (guarded deployer name node target call role path assigned) name node d s := by
  obtain ⟨left, hcheck⟩ :=
    ensureAuthority_of_candid deployer d hcandid hunfired name node
  rw [if_neg howner] at hcheck
  refine ⟨reread s (s.reads + 1) left, ?_, rfl, rfl⟩
  rw [guarded, bind_of_error _ hcheck]

/-- What succeeds without the check was made with authority, as the ledger sees it. -/
theorem granted_of_guarded {name : String}
    (h : guarded deployer name node target call role path assigned (d.checking false) s =
      (.ok record, t)) :
    Granted s.ledger.state.holdings deployer target call := by
  rw [guarded, bind_of_ok _ (ensureAuthority_of_unchecked rfl name)] at h
  rcases bind_cases h with ⟨receipt, u, htransact, hrecord⟩ | ⟨e, -, hfailed⟩
  · obtain ⟨hrecorded, rfl⟩ := Prod.mk.inj hrecord
    have hexecuted := execute_of_transact htransact (recordOf_eq_ok hrecorded).1
    exact Simulated.granted_of_execute hexecuted
  · cases hfailed

end Check

/-! ## Assignments -/

section Admits

variable {deployer : Address} {d : Desk} {s : Session World}

/-- **What the check lets through on a ledger that never lagged.** -/
structure Admits (deployer : Address) (d : Desk) (s : Session World) : Prop where
  subnode : ∀ parent label owner,
    Unhindered (fun d => assignSubnode (Simulated.ledger deployer) d parent label owner) d s
  resolver : ∀ path resolver,
    Unhindered (fun d => bindResolver (Simulated.ledger deployer) d path resolver) d s
  /-- Interfaces on resolvers that point at the naming registry. -/
  interface : ∀ resolver contract path interfaceId implementer,
    s.ledger.state.contracts.get? resolver = some contract →
    contract.registry? = some d.registry →
    Unhindered (fun d => bindInterface (Simulated.ledger deployer) d resolver path interfaceId
      implementer) d s
  /-- Interfaces on any resolver, for the owner of the node in the naming registry. -/
  owned : ∀ resolver path interfaceId implementer,
    s.ledger.state.ownerOf d.registry (Naming.node path) = deployer →
    Unhindered (fun d => bindInterface (Simulated.ledger deployer) d resolver path interfaceId
      implementer) d s
  /-- Interfaces on any resolver, for everybody else: the check stops them, also those that the
  ledger carries out because the resolver points at another registry. -/
  elsewhere : ∀ resolver path interfaceId implementer,
    s.ledger.state.ownerOf d.registry (Naming.node path) ≠ deployer →
    Stopped (fun d => bindInterface (Simulated.ledger deployer) d resolver path interfaceId
      implementer) "setInterface" (Naming.node path) d s

theorem admits_of_candid (hcandid : Candid s.ledger) (hunfired : Unfired s) :
    Admits deployer d s where
  subnode parent label owner record t hunchecked := by
    have hgranted := granted_of_guarded hunchecked
    cases hgranted with
    | subnode hcontract howner =>
      exact unhindered_of_owner hcandid hunfired howner record t hunchecked
  resolver path resolver record t hunchecked := by
    have hgranted := granted_of_guarded hunchecked
    cases hgranted with
    | resolver hcontract howner =>
      exact unhindered_of_owner hcandid hunfired howner record t hunchecked
  interface resolver contract path interfaceId implementer hcontract hregistry record t
      hunchecked := by
    have hgranted := granted_of_guarded hunchecked
    cases hgranted with
    | interface hcontract' hregistry' howner =>
      obtain rfl := Option.some.inj (hcontract.symm.trans hcontract')
      obtain rfl := Option.some.inj (hregistry.symm.trans hregistry')
      exact unhindered_of_owner hcandid hunfired howner record t hunchecked
  owned _ _ _ _ howner := unhindered_of_owner hcandid hunfired howner
  elsewhere _ _ _ _ howner := stopped_of_stranger hcandid hunfired howner

/-- **The check never stops an assignment in the naming registry that the ledger would carry out**,
nor an interface on a resolver that points at this registry. -/
theorem admits_play {history : List Event} (hprompt : ∀ e ∈ history, e.Prompt)
    (hplayed : s.ledger = World.play deployer {} history)
    (hreadable : s.ledger.faults.unreadable = false) (hunfired : Unfired s) (d : Desk) :
    Admits deployer d s := by
  rw [hplayed] at hreadable
  exact admits_of_candid (hplayed ▸ Simulated.candid_play hprompt hreadable) hunfired

end Admits

/-! ## Two registries -/

/-- Two registries of the account, and a resolver that points at the second. -/
def resolverCreated : List Event :=
  [Simulated.registryCreated, Simulated.registryCreated,
    .submit (.create
      { name := "resolver", contract := "Resolver",
        args := [.address (Address.defaultDeployer.ofCreation 1)], libraries := [] })]

/-- The account gives a node of the second registry to itself. -/
def secondGiven : Event :=
  .submit (.call (Address.defaultDeployer.ofCreation 1)
    (.setSubnodeOwner (Naming.node "") (Naming.labelHash "btc") .defaultDeployer))

/-- The session that finds the two registries, the resolver and the node. -/
def divided : Session World :=
  { ledger := World.play .defaultDeployer {} (resolverCreated ++ [secondGiven]) }

/-- The desk of the first registry. -/
def firstDesk : Desk := ⟨Address.defaultDeployer.ofCreation 0, 120, false⟩

theorem contracts_resolverCreated :
    (World.play .defaultDeployer {} resolverCreated).state.contracts =
      ((Assoc.empty.insert (Address.defaultDeployer.ofCreation 0)
          ⟨"Root", .defaultDeployer, []⟩).insert
        (Address.defaultDeployer.ofCreation 1) ⟨"Root", .defaultDeployer, []⟩).insert
          (Address.defaultDeployer.ofCreation 2)
            ⟨"Resolver", .defaultDeployer, [.address (Address.defaultDeployer.ofCreation 1)]⟩ :=
  rfl

theorem granted_second :
    Granted (World.play .defaultDeployer {} resolverCreated).state.holdings .defaultDeployer
      (Address.defaultDeployer.ofCreation 1)
      (.setSubnodeOwner (Naming.node "") (Naming.labelHash "btc") .defaultDeployer) := by
  have hcontract : (World.play .defaultDeployer {} resolverCreated).state.contracts.get?
      (Address.defaultDeployer.ofCreation 1) = some ⟨"Root", .defaultDeployer, []⟩ := by
    have hother := mt (Address.ofCreation_inj_defaultDeployer 2 1 (by decide) (by decide))
      (by decide)
    rw [contracts_resolverCreated, Assoc.get?_insert, if_neg hother, Assoc.get?_insert, if_pos rfl]
  exact .subnode hcontract (Simulated.ownerOf_root rfl hcontract)

theorem holdings_divided :
    divided.ledger.state.holdings =
      (World.play .defaultDeployer {} resolverCreated).state.holdings.apply
        (Address.defaultDeployer.ofCreation 1)
        (.setSubnodeOwner (Naming.node "") (Naming.labelHash "btc") .defaultDeployer) := by
  have hholdings := Simulated.holdings_call
    (World.play .defaultDeployer {} resolverCreated).state .defaultDeployer
    (Address.defaultDeployer.ofCreation 1)
    (.setSubnodeOwner (Naming.node "") (Naming.labelHash "btc") .defaultDeployer) 0
  rw [Simulated.execute_of_granted granted_second] at hholdings
  exact hholdings

theorem contract_resolver :
    (World.play .defaultDeployer {} resolverCreated).state.contracts.get?
        (Address.defaultDeployer.ofCreation 2) =
      some ⟨"Resolver", .defaultDeployer, [.address (Address.defaultDeployer.ofCreation 1)]⟩ := by
  rw [contracts_resolverCreated, Assoc.get?_insert, if_pos rfl]

theorem contract_divided :
    divided.ledger.state.contracts.get? (Address.defaultDeployer.ofCreation 2) =
      some ⟨"Resolver", .defaultDeployer, [.address (Address.defaultDeployer.ofCreation 1)]⟩ := by
  rw [Simulated.contracts_of_holdings holdings_divided, Simulated.contracts_apply]
  exact contract_resolver

/-- The ledger would register an interface of the node on the resolver. -/
theorem granted_divided :
    Granted divided.ledger.state.holdings .defaultDeployer (Address.defaultDeployer.ofCreation 2)
      (.setInterface (Naming.node "btc") (.zero 4) (.zero 20)) := by
  rw [holdings_divided]
  exact .interface contract_resolver rfl ((Simulated.ownerOf_apply ..).trans (if_pos rfl))

/-- In the first registry nobody owns the node. -/
theorem ownerOf_divided_first :
    divided.ledger.state.ownerOf firstDesk.registry (Naming.node "btc") ≠ .defaultDeployer := by
  have hother := mt (Address.ofCreation_inj_defaultDeployer 1 0 (by decide) (by decide))
    (by decide)
  have hchild : Naming.child Naming.root "btc" ≠ Naming.root :=
    Naming.child_ne_of_digest (by decide +kernel) (by decide +kernel)
  have hnode : Naming.node "btc" ≠ Naming.root := hchild
  have hunassigned : divided.ledger.state.owners.get? (firstDesk.registry, Naming.node "btc") =
      none := by
    rw [Simulated.owners_of_holdings holdings_divided]
    exact (Assoc.get?_insert ..).trans (if_neg fun hsame => hother (congrArg Prod.fst hsame))
  rw [State.ownerOf, hunassigned]
  simp only [if_neg hnode]
  decide

theorem prompt_divided : ∀ e ∈ resolverCreated ++ [secondGiven], e.Prompt := by
  intro e he reads hset
  subst hset
  simp [resolverCreated, secondGiven, Simulated.registryCreated] at he

/-- On the desk of the second registry, the check lets the interface pass. -/
theorem admits_play_divided :
    (∀ e ∈ resolverCreated ++ [secondGiven], e.Prompt) ∧
      divided.ledger.faults.unreadable = false ∧ Unfired divided ∧
      Unhindered (fun d => bindInterface (Simulated.ledger .defaultDeployer) d
        (Address.defaultDeployer.ofCreation 2) "btc" (.zero 4) (.zero 20))
        ⟨Address.defaultDeployer.ofCreation 1, 120, false⟩ divided := by
  have hunfired : Unfired divided := rfl
  exact ⟨prompt_divided, rfl, hunfired,
    (admits_play prompt_divided rfl rfl hunfired _).interface _ _ _ _ _ contract_divided rfl⟩

/-- **The check stops what the ledger would carry out**: an interface on a resolver that points at
the second registry, made on the desk of the first. -/
theorem not_unhindered_divided :
    (∀ e ∈ resolverCreated ++ [secondGiven], e.Prompt) ∧
      Unfired divided ∧
      ¬ Unhindered (fun d => bindInterface (Simulated.ledger .defaultDeployer) d
        (Address.defaultDeployer.ofCreation 2) "btc" (.zero 4) (.zero 20)) firstDesk divided := by
  have hunfired : Unfired divided := rfl
  refine ⟨prompt_divided, hunfired, fun hunhindered => ?_⟩
  obtain ⟨record, t, hexecute, -, -⟩ := execute_of_ok (s := divided) (firstDesk.checking false)
    .interface (some "btc") (.zero 20) rfl rfl (Simulated.execute_of_granted granted_divided)
  obtain ⟨t', hchecked, -, -⟩ := hunhindered record t
    ((bind_of_ok _ (ensureAuthority_of_unchecked rfl "setInterface")).trans hexecute)
  have hstopped : Stopped (guarded .defaultDeployer "setInterface" (Naming.node "btc")
      (Address.defaultDeployer.ofCreation 2) (.setInterface (Naming.node "btc") (.zero 4) (.zero 20))
      .interface (some "btc") (.zero 20)) "setInterface" (Naming.node "btc") firstDesk divided :=
    stopped_of_stranger (Simulated.candid_play prompt_divided rfl) hunfired ownerOf_divided_first
  obtain ⟨u, hstopped, -, -⟩ := hstopped
  cases hchecked.symm.trans hstopped

end Rollout.Run
