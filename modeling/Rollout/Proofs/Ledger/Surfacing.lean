import Rollout.Proofs.Ledger.Owners
import Rollout.Proofs.Ledger.Reads

/-!
# Proofs/Ledger/Surfacing — how a new owner becomes visible

Reads of a node count down one entry of stale owners, and nothing else touches that entry but a
submission that gives the same node away (`Due.step`).  So what reads show after a node was given to
somebody is told by the entry that the submission leaves behind, whatever else happens in between
(`surfaces_of_due`).

On a ledger that lags, the submission leaves an entry of its own, and the owner before is shown as
often as the ledger lags.  On one that does not lag it leaves none, and an entry of an earlier
submission, made under a lag, stays and is counted down to its end (`surfacing_play`).
-/

namespace Rollout.Simulated

variable {deployer registry : Address} {node : Node} {owner previous : Address} {count : Nat}
  {s s' : State} {w w' : World} {e : Event}

/-! ## What reads show -/

/-- What an event shows as the owner of a node, if it is a read of it that succeeds. -/
def World.shownBy? (w : World) (registry : Address) (node : Node) : Event → Option Address
  | .read registry' node' =>
    if registry' = registry ∧ node' = node then (Simulated.owner registry node w).answer.toOption
    else none
  | .submit _ | .await .. | .set _ => none

/-- What the reads of a node show in the course of a history. -/
def World.shown (deployer registry : Address) (node : Node) : World → List Event → List Address
  | _, [] => []
  | w, e :: later =>
    (w.shownBy? registry node e).toList ++ shown deployer registry node (w.step deployer e) later

/-- The first `count` reads show the owner before, and all later ones the new owner. -/
def Surfaces (count : Nat) (previous owner : Address) (shown : List Address) : Prop :=
  ∀ i (h : i < shown.length), shown[i] = if i < count then previous else owner

theorem surfaces_nil : Surfaces count previous owner [] :=
  fun _ h => absurd h (Nat.not_lt_zero _)

theorem Surfaces.cons {shown : List Address} (h : Surfaces (count - 1) previous owner shown) :
    Surfaces count previous owner ((if count = 0 then owner else previous) :: shown) := by
  intro i hi
  cases i with
  | zero =>
    rw [List.getElem_cons_zero]
    split <;> split <;> first | rfl | omega
  | succ i =>
    rw [List.getElem_cons_succ, h i (Nat.lt_of_succ_lt_succ hi)]
    split <;> split <;> first | rfl | omega

theorem Surfaces.head {first : Address} {shown : List Address}
    (h : Surfaces 0 previous owner (first :: shown)) : first = owner :=
  (h 0 (Nat.succ_pos _)).trans (if_neg (Nat.lt_irrefl 0))

/-- Where no read shows the owner before, it does not matter who that was. -/
theorem Surfaces.of_prompt {shown : List Address} (h : Surfaces 0 previous owner shown)
    (other : Address) : Surfaces 0 other owner shown :=
  fun i hi => (h i hi).trans (if_neg (Nat.not_lt_zero i))

/-! ## Giving a node away -/

/-- A call that succeeds was made with authority. -/
theorem granted_of_succeeds {target : Address} {call : Call}
    (h : Succeeds deployer (.call target call) w) :
    Granted w.state.holdings deployer target call := by
  obtain ⟨transaction, receipt, hanswer, hreceipt, hsuccess⟩ := h
  have hsubmit : submit deployer (.call target call) w =
      (.ok transaction, (submit deployer (.call target call) w).2) := Prod.ext hanswer rfl
  exact granted_of_execute (execute_of_receipt hsubmit hreceipt hsuccess)

/-- A call that is made with authority succeeds. -/
theorem succeeds_of_granted {target : Address} {call : Call}
    (h : Granted w.state.holdings deployer target call) :
    Succeeds deployer (.call target call) w := by
  obtain ⟨transaction, receipt, hsubmit, hreceipt, hsuccess⟩ :=
    receipt_of_call deployer target call w
  exact ⟨transaction, receipt, congrArg Prod.fst hsubmit, hreceipt,
    hsuccess.2 ⟨_, execute_of_granted h⟩⟩

/-- Whoever has the authority gives a node away. -/
theorem gives_of_granted {parent : Node} {label : Digest}
    (h : Granted w.state.holdings deployer registry (.setSubnodeOwner parent label owner)) :
    Gives deployer w registry (Naming.subnode parent label) owner
      (.submit (.call registry (.setSubnodeOwner parent label owner))) := by
  have hsuccess := succeeds_of_granted h
  cases h with
  | subnode hcontract howner => exact .intro rfl howner hsuccess

/-- Nobody else is given anything. -/
theorem ownerOf_step_of_granted {parent : Node} {label : Digest}
    (h : Granted w.state.holdings deployer registry (.setSubnodeOwner parent label owner))
    (node : Node) :
    (w.step deployer (.submit (.call registry (.setSubnodeOwner parent label owner)))).state.ownerOf
        registry node =
      if Naming.subnode parent label = node then owner else w.state.ownerOf registry node := by
  have hholdings := holdings_call w.state deployer registry (.setSubnodeOwner parent label owner)
    w.faults.lag
  rw [execute_of_granted h] at hholdings
  exact (ownerOf_of_holdings hholdings registry node).trans (ownerOf_apply ..)

/-- An event does not give the node to anybody. -/
def Spares (deployer registry : Address) (node : Node) (w : World) (e : Event) : Prop :=
  ∀ owner, ¬ Gives deployer w registry node owner e

/-- No event of a history gives the node to anybody. -/
def Spared (deployer registry : Address) (node : Node) : World → List Event → Prop
  | _, [] => True
  | w, e :: later =>
    Spares deployer registry node w e ∧ Spared deployer registry node (w.step deployer e) later

/-- The recorded owner of a node only changes when the node is given away. -/
theorem Effect.recorded (h : Effect deployer w w' e) (hspares : Spares deployer registry node w e) :
    w'.state.owners.get? (registry, node) = w.state.owners.get? (registry, node) := by
  cases h with
  | kept hholdings => rw [owners_of_holdings hholdings]; rfl
  | created _ hholdings => rw [owners_of_holdings hholdings]; rfl
  | @called target call hsuccess hgranted hholdings =>
    rw [owners_of_holdings hholdings]
    cases hgranted with
    | subnode hcontract howner =>
      refine (Assoc.get?_insert ..).trans (if_neg fun hsame => ?_)
      cases hsame
      exact hspares _ (.intro rfl howner hsuccess)
    | _ => rfl

/-- The stale reads of a node only change when the node is given away. -/
theorem get?_stale_submit {request : Request}
    (hspares : Spares deployer registry node w (.submit request)) :
    (submit deployer request w).2.state.stale.get? (registry, node) =
      w.state.stale.get? (registry, node) := by
  cases request with
  | create c => rw [stale_create]
  | call target call =>
    change (State.call ..).stale.get? _ = _
    cases hexecute : w.state.count.execute deployer target call with
    | error revert => rw [State.call, hexecute]; rfl
    | ok changed =>
      have hholdings := execute_holdings w.state.count deployer target call
      rw [hexecute] at hholdings
      have hgranted : Granted w.state.holdings deployer target call := granted_of_execute hholdings
      refine get?_stale_of_other w.state hgranted fun change hchange hsame => ?_
      cases hgranted with
      | subnode hcontract howner =>
        obtain rfl := Option.some.inj hchange
        cases hsame
        exact hspares _ (gives_of_granted (.subnode hcontract howner))
      | _ => cases hchange

/-! ## The countdown -/

/-- **What reads of a node have still to show**: the owner before so many times, and then the owner
on record. -/
structure Due (s : State) (registry : Address) (node : Node) (count : Nat)
    (previous owner : Address) : Prop where
  recorded : s.owners.get? (registry, node) = some owner
  stale : s.stale.get? (registry, node) = some ⟨previous, count⟩ ∨
    count = 0 ∧ s.stale.get? (registry, node) = none

namespace Due

theorem of_same (h : Due s registry node count previous owner)
    (howners : s'.owners.get? (registry, node) = s.owners.get? (registry, node))
    (hstale : s'.stale.get? (registry, node) = s.stale.get? (registry, node)) :
    Due s' registry node count previous owner where
  recorded := howners.trans h.recorded
  stale := by
    rw [hstale]
    exact h.stale

theorem ownerOf (h : Due s registry node count previous owner) :
    s.ownerOf registry node = owner := by
  rw [State.ownerOf, h.recorded]

/-- A read of the node shows what is due next, and one less is due after it. -/
theorem read (h : Due s registry node count previous owner) :
    (s.read registry node).1 = (if count = 0 then owner else previous) ∧
      Due (s.read registry node).2 registry node (count - 1) previous owner := by
  rcases h.stale with hstale | ⟨rfl, hstale⟩
  · cases count with
    | zero =>
      rw [read_of_stale_zero hstale]
      exact ⟨h.ownerOf, h.recorded, .inr ⟨rfl, (Assoc.get?_erase ..).trans (if_pos rfl)⟩⟩
    | succ count =>
      rw [read_of_stale_succ hstale]
      exact ⟨rfl, h.recorded, .inl ((Assoc.get?_insert ..).trans (if_pos rfl))⟩
  · rw [read_of_settled hstale]
    exact ⟨h.ownerOf, h⟩

/-- Reads of other nodes count down other entries. -/
theorem read_other {registry' : Address} {node' : Node}
    (h : Due s registry node count previous owner) (hother : (registry', node') ≠ (registry, node)) :
    Due (s.read registry' node').2 registry node count previous owner := by
  refine h.of_same ?_ ?_
  · rw [State.read]
    split <;> rfl
  · rw [State.read]
    split
    · rfl
    · exact (Assoc.get?_erase ..).trans (if_neg hother)
    · exact (Assoc.get?_insert ..).trans (if_neg hother)

theorem shownBy? (h : Due w.state registry node count previous owner)
    (hreadable : w.faults.unreadable = false) :
    w.shownBy? registry node (.read registry node) =
      some (if count = 0 then owner else previous) := by
  rw [World.shownBy?, if_pos ⟨rfl, rfl⟩, owner_of_read hreadable rfl]
  exact congrArg some h.read.1

/-- A read of the node that succeeds shows what is due next, and any other leaves it as it is. -/
theorem stepRead (h : Due w.state registry node count previous owner) (registry' : Address)
    (node' : Node) :
    w.shownBy? registry node (.read registry' node') = none ∧
        Due (Simulated.owner registry' node' w).state.state registry node count previous owner ∨
      w.shownBy? registry node (.read registry' node') =
          some (if count = 0 then owner else previous) ∧
        Due (Simulated.owner registry' node' w).state.state registry node (count - 1) previous
          owner := by
  cases hunreadable : w.faults.unreadable with
  | true =>
    rw [World.shownBy?, Simulated.owner, Simulated.owner, if_pos hunreadable, if_pos hunreadable]
    exact .inl ⟨ite_self _, h⟩
  | false =>
    rw [owner_of_read hunreadable rfl]
    by_cases hsame : registry' = registry ∧ node' = node
    · obtain ⟨rfl, rfl⟩ := hsame
      exact .inr ⟨h.shownBy? hunreadable, h.read.2⟩
    · rw [World.shownBy?, if_neg hsame]
      exact .inl ⟨rfl, h.read_other fun hkey => hsame (Prod.mk.inj hkey)⟩

/-- **One event**: a read of the node that succeeds shows what is due next, and all other events
that spare the node leave what is due as it is. -/
theorem step (h : Due w.state registry node count previous owner)
    (hspares : Spares deployer registry node w e) :
    w.shownBy? registry node e = none ∧
        Due (w.step deployer e).state registry node count previous owner ∨
      w.shownBy? registry node e = some (if count = 0 then owner else previous) ∧
        Due (w.step deployer e).state registry node (count - 1) previous owner := by
  cases e with
  | submit request =>
    have hrecorded := (effect_of_step deployer w (.submit request)).recorded hspares
    exact .inl ⟨rfl, h.of_same hrecorded (get?_stale_submit hspares)⟩
  | await transaction limit =>
    rw [World.step, stateAfter_await]
    exact .inl ⟨rfl, h⟩
  | set switch => exact .inl ⟨rfl, h⟩
  | read registry' node' => exact h.stepRead registry' node'

end Due

/-- **Reads show what is due**, whatever else happens between them. -/
theorem surfaces_of_due {later : List Event} (h : Due w.state registry node count previous owner)
    (hspared : Spared deployer registry node w later) :
    Surfaces count previous owner (w.shown deployer registry node later) := by
  induction later generalizing w count with
  | nil => exact surfaces_nil
  | cons e later ih =>
    rw [World.shown]
    rcases h.step hspared.1 with ⟨hshown, hdue⟩ | ⟨hshown, hdue⟩
    · rw [hshown]
      exact ih hdue hspared.2
    · rw [hshown]
      exact (ih hdue hspared.2).cons

/-! ## After a node was given away -/

/-- How many stale reads of a node are left. -/
def State.staleReads (s : State) (registry : Address) (node : Node) : Nat :=
  match s.stale.get? (registry, node) with
  | some stale => stale.remaining
  | none => 0

/-- The entries of a node right after it was given away. -/
theorem Gives.entries (h : Gives deployer w registry node owner e) :
    (w.step deployer e).state.owners.get? (registry, node) = some owner ∧
      (w.step deployer e).state.stale.get? (registry, node) =
        if w.faults.lag = 0 then w.state.stale.get? (registry, node)
        else some ⟨w.state.ownerOf registry node, w.faults.lag⟩ := by
  cases h with
  | @intro parent label hnode howner hsuccess =>
    subst hnode
    have hgranted := granted_of_succeeds hsuccess
    constructor
    · have hholdings := holdings_call w.state deployer registry
        (.setSubnodeOwner parent label owner) w.faults.lag
      rw [execute_of_granted hgranted] at hholdings
      have howners := owners_of_holdings hholdings
      exact (congrArg (Assoc.get? · _) howners).trans ((Assoc.get?_insert ..).trans (if_pos rfl))
    · exact get?_stale_of_change w.state hgranted rfl

/-- **How an owner surfaces that a node is given to.** -/
structure Surfacing (deployer : Address) (w : World) (registry : Address) (node : Node)
    (owner : Address) (e : Event) (later : List Event) : Prop where
  /-- On a ledger that lags, or on one where nothing stale is left: after as many reads as it lags. -/
  lagging : w.faults.lag ≠ 0 ∨ w.state.staleReads registry node = 0 →
    Surfaces w.faults.lag (w.state.ownerOf registry node) owner
      ((w.step deployer e).shown deployer registry node later)
  /-- On one that does not lag: after the stale reads that are left. -/
  leftover : ∀ stale, w.faults.lag = 0 → w.state.stale.get? (registry, node) = some stale →
    Surfaces stale.remaining stale.previous owner
      ((w.step deployer e).shown deployer registry node later)

theorem surfacing_play {later : List Event} (h : Gives deployer w registry node owner e)
    (hspared : Spared deployer registry node (w.step deployer e) later) :
    Surfacing deployer w registry node owner e later := by
  obtain ⟨hrecorded, hstale⟩ := h.entries
  have hleftover : ∀ stale, w.faults.lag = 0 →
      w.state.stale.get? (registry, node) = some stale →
      Surfaces stale.remaining stale.previous owner
        ((w.step deployer e).shown deployer registry node later) := by
    intro stale hprompt hleft
    rw [if_pos hprompt, hleft] at hstale
    exact surfaces_of_due ⟨hrecorded, .inl hstale⟩ hspared
  refine ⟨fun hlag => ?_, hleftover⟩
  by_cases hprompt : w.faults.lag = 0
  · have hnone := hlag.resolve_left (absurd hprompt)
    rw [State.staleReads] at hnone
    rw [hprompt]
    cases hleft : w.state.stale.get? (registry, node) with
    | none =>
      rw [if_pos hprompt, hleft] at hstale
      exact surfaces_of_due ⟨hrecorded, .inr ⟨rfl, hstale⟩⟩ hspared
    | some stale =>
      -- the entry is there, but nothing of it is left to show
      rw [hleft] at hnone
      have hover := hleftover stale hprompt hleft
      rw [show stale.remaining = 0 from hnone] at hover
      exact hover.of_prompt _
  · rw [if_neg hprompt] at hstale
    exact surfaces_of_due ⟨hrecorded, .inl hstale⟩ hspared

/-! ## A lag that was set back -/

/-- The registry of the account, which is its first contract. -/
def firstRegistry : Address := Address.defaultDeployer.ofCreation 0

/-- A child of the root. -/
def firstChild : Node := Naming.subnode Naming.root (.zero 32)

/-- Some other account. -/
def stranger : Address := .ofNat 20 1

/-- The child is given to somebody. -/
def handing (owner : Address) : Event :=
  .submit (.call firstRegistry (.setSubnodeOwner Naming.root (.zero 32) owner))

/-- The owner of the child is read. -/
def childRead : Event := .read firstRegistry firstChild

/-- The ledger with the registry, when it begins to lag by two reads. -/
def lagged : World :=
  World.play .defaultDeployer {} [registryCreated, .set (.lag 2)]

/-- The ledger that no longer lags, after the account gave the child to itself. -/
def recovered : World :=
  lagged.play .defaultDeployer [handing .defaultDeployer, .set (.lag 0)]

theorem contract_lagged : lagged.state.contracts.get? firstRegistry =
    some ⟨"Root", .defaultDeployer, []⟩ :=
  get?_registryCreated

theorem ownerOf_lagged_root :
    lagged.state.ownerOf firstRegistry Naming.root = .defaultDeployer :=
  ownerOf_root rfl contract_lagged

/-- Before it is given away, the child belongs to the account or to nobody. -/
theorem ownerOf_lagged_child : lagged.state.ownerOf firstRegistry firstChild ≠ stranger := by
  rcases ownerOf_unassigned firstChild rfl contract_lagged with h | h
  · rw [h]
    decide
  · rw [h]
    decide

/-- The owner of a node may give its children away. -/
theorem granted_of_ownerOf {s : State} {c : Contract} {parent : Node} {label : Digest}
    (hcontract : s.contracts.get? registry = some c) (howner : s.ownerOf registry parent = deployer)
    (owner : Address) :
    Granted s.holdings deployer registry (.setSubnodeOwner parent label owner) :=
  .subnode hcontract howner

theorem granted_lagged (owner : Address) :
    Granted lagged.state.holdings .defaultDeployer firstRegistry
      (.setSubnodeOwner Naming.root (.zero 32) owner) :=
  granted_of_ownerOf contract_lagged ownerOf_lagged_root owner

/-- Only the lag is set back. -/
theorem step_set_lag (w : World) (lag : Nat) :
    (w.step deployer (.set (.lag lag))).state = w.state ∧
      (w.step deployer (.set (.lag lag))).faults.lag = lag :=
  ⟨rfl, rfl⟩

theorem gives_lagged :
    Gives .defaultDeployer lagged firstRegistry firstChild stranger (handing stranger) :=
  gives_of_granted (granted_lagged stranger)

theorem lag_lagged : lagged.faults.lag = 2 :=
  rfl

theorem recovered_eq : recovered =
    (lagged.step .defaultDeployer (handing .defaultDeployer)).step .defaultDeployer
      (.set (.lag 0)) :=
  rfl

theorem state_recovered :
    recovered.state = (lagged.step .defaultDeployer (handing .defaultDeployer)).state := by
  rw [recovered_eq, (step_set_lag _ 0).1]

theorem lag_recovered : recovered.faults.lag = 0 := by
  rw [recovered_eq, (step_set_lag _ 0).2]

theorem contract_recovered : recovered.state.contracts.get? firstRegistry =
    some ⟨"Root", .defaultDeployer, []⟩ := by
  rw [state_recovered]
  exact (get?_contracts_submit fun _ h => by cases h).trans contract_lagged

/-- The root stays with the account, whatever node the child is. -/
theorem ownerOf_recovered_root :
    recovered.state.ownerOf firstRegistry Naming.root = .defaultDeployer := by
  rw [state_recovered, handing, ownerOf_step_of_granted (granted_lagged .defaultDeployer),
    ownerOf_lagged_root, ite_self]

/-- Both stale reads are left when the ledger does not lag any more. -/
theorem stale_recovered : recovered.state.stale.get? (firstRegistry, firstChild) =
    some ⟨lagged.state.ownerOf firstRegistry firstChild, 2⟩ := by
  rw [state_recovered]
  exact (gives_of_granted (granted_lagged .defaultDeployer)).entries.2

theorem gives_recovered :
    Gives .defaultDeployer recovered firstRegistry firstChild stranger (handing stranger) :=
  gives_of_granted (granted_of_ownerOf contract_recovered ownerOf_recovered_root stranger)

theorem spared_childRead (w : World) :
    Spared .defaultDeployer firstRegistry firstChild w [childRead, childRead, childRead] := by
  refine ⟨?_, ?_, ?_, trivial⟩ <;> rintro _ ⟨⟩

/-- On a ledger that just began to lag, two reads show who owned the child before; on one that no
longer lags, two reads still show who owned it when the ledger did. -/
theorem surfacing_play_recovered :
    (Gives .defaultDeployer lagged firstRegistry firstChild stranger (handing stranger) ∧
      Spared .defaultDeployer firstRegistry firstChild
        (lagged.step .defaultDeployer (handing stranger)) [childRead, childRead, childRead] ∧
      Surfaces 2 (lagged.state.ownerOf firstRegistry firstChild) stranger
        ((lagged.step .defaultDeployer (handing stranger)).shown .defaultDeployer firstRegistry
          firstChild [childRead, childRead, childRead])) ∧
    Gives .defaultDeployer recovered firstRegistry firstChild stranger (handing stranger) ∧
      Spared .defaultDeployer firstRegistry firstChild
        (recovered.step .defaultDeployer (handing stranger)) [childRead, childRead, childRead] ∧
      Surfaces 2 (lagged.state.ownerOf firstRegistry firstChild) stranger
        ((recovered.step .defaultDeployer (handing stranger)).shown .defaultDeployer firstRegistry
          firstChild [childRead, childRead, childRead]) := by
  have hlagging := spared_childRead (lagged.step .defaultDeployer (handing stranger))
  have hleftover := spared_childRead (recovered.step .defaultDeployer (handing stranger))
  refine ⟨⟨gives_lagged, hlagging, ?_⟩, gives_recovered, hleftover, ?_⟩
  · have hlag : lagged.faults.lag ≠ 0 := by
      rw [lag_lagged]
      decide
    exact lag_lagged ▸ (surfacing_play gives_lagged hlagging).lagging (.inl hlag)
  · exact (surfacing_play gives_recovered hleftover).leftover _ lag_recovered stale_recovered

/-- A new owner does not surface at once on a ledger that no longer lags. -/
theorem not_surfaces_recovered :
    Gives .defaultDeployer recovered firstRegistry firstChild stranger (handing stranger) ∧
      Spared .defaultDeployer firstRegistry firstChild
        (recovered.step .defaultDeployer (handing stranger)) [childRead, childRead, childRead] ∧
      recovered.faults.lag = 0 ∧
      ¬ Surfaces recovered.faults.lag (recovered.state.ownerOf firstRegistry firstChild) stranger
        ((recovered.step .defaultDeployer (handing stranger)).shown .defaultDeployer firstRegistry
          firstChild [childRead, childRead, childRead]) := by
  refine ⟨gives_recovered, spared_childRead _, lag_recovered, fun hsurfaces => ?_⟩
  obtain ⟨hrecorded, hstale⟩ := gives_recovered.entries
  rw [if_pos lag_recovered] at hstale
  have hdue : Due (recovered.step .defaultDeployer (handing stranger)).state firstRegistry firstChild
      2 (lagged.state.ownerOf firstRegistry firstChild) stranger :=
    ⟨hrecorded, .inl (hstale.trans stale_recovered)⟩
  have hfirst : (recovered.step .defaultDeployer (handing stranger)).shownBy? firstRegistry
      firstChild childRead = some (lagged.state.ownerOf firstRegistry firstChild) :=
    (hdue.shownBy? rfl).trans (congrArg some (if_neg (by decide)))
  rw [lag_recovered, World.shown, hfirst, Option.toList_some, List.singleton_append] at hsurfaces
  exact ownerOf_lagged_child hsurfaces.head

end Rollout.Simulated
