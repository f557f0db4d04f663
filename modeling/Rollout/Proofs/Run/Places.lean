import Rollout.Proofs.Naming.Path
import Rollout.Proofs.Run.Position
import Rollout.Proofs.Run.Requests

/-!
# Proofs/Run/Places — the path and the node of a record

A record tells its place in the naming tree twice.  Its path is put together as text, its node along
the digests.  The two denote the same position for every resolver and interface, and for every
subnode whose label is one label (`place_run`).  A label that is not is recorded at a path that leads
somewhere else, as many levels down as the text has parts.
-/

namespace Rollout

/-- Whether the path of a record leads to its node. -/
def Assignment.Consistent (a : Assignment) : Prop :=
  a.node = a.path.map Naming.node

namespace Run

variable {σ : Type}

/-- **Where a step's record places it.**  A subnode is recorded below its parent: its node is the
child of the parent's, its path leads through all parts of the label. -/
def Placed : WiringStep → Assignment → Prop
  | .assignSubnode parent label _, a =>
    a.path = some (Naming.join parent label) ∧
    a.node = some (Naming.child (Naming.node parent) label) ∧
    (parent ≠ "" ∨ label ≠ "" → a.path.map Naming.node =
      some (Naming.descend (Naming.node parent) (Naming.labels label))) ∧
    (Naming.IsLabel parent label → a.Consistent)
  | .bindResolver path _, a => a.path = some path ∧ a.Consistent
  | .bindInterface _ path _ _, a => a.path = some path ∧ a.Consistent
  | .authorizeController _ _, a => a.path = none ∧ a.node = none
  | .awaitPropagation _ _, _ => False

theorem placed_subnode {a : Assignment} {parent label : String} (owner : Principal)
    (hpath : a.path = some (Naming.join parent label))
    (hnode : a.node = some (Naming.child (Naming.node parent) label)) :
    Placed (.assignSubnode parent label owner) a := by
  refine ⟨hpath, hnode, fun hne => ?_, fun hlabel => ?_⟩
  · rw [hpath, Option.map_some, Naming.node_join hne]
  · rw [Assignment.Consistent, hnode, hpath, Option.map_some, Naming.node_join_of_isLabel hlabel]

/-! ## Records of single assignments -/

section Assignments

variable {l : Ledger σ} {d : Desk} {target assigned : Address} {call : Call} {role : AssignmentRole}
  {path : Option String} {record : Assignment} {s s' : Session σ}

theorem place_of_execute {check : Action σ Unit}
    (h : (check >>= fun _ => execute l d target call role path assigned) s = (.ok record, s')) :
    record.path = path ∧ record.node = affectedNode call := by
  rcases bind_cases h with ⟨_, t, -, hexecute⟩ | ⟨_, -, hr⟩
  · rcases bind_cases hexecute with ⟨receipt, u, -, hrecord⟩ | ⟨_, -, hr⟩
    · obtain ⟨-, rfl⟩ := recordOf_eq_ok (congrArg Prod.fst hrecord)
      exact ⟨rfl, rfl⟩
    · cases hr
  · cases hr

theorem placed_of_assignSubnode {parent label : String} {owner : Address}
    (h : assignSubnode l d parent label owner s = (.ok record, s')) :
    Placed (.assignSubnode parent label (.address owner)) record := by
  obtain ⟨hpath, hnode⟩ := place_of_execute h
  exact placed_subnode _ hpath hnode

theorem placed_of_bindResolver {path : String} {resolver : Address}
    (h : bindResolver l d path resolver s = (.ok record, s')) :
    Placed (.bindResolver path (.address resolver)) record := by
  obtain ⟨hpath, hnode⟩ := place_of_execute h
  exact ⟨hpath, by rw [Assignment.Consistent, hpath, hnode]; rfl⟩

theorem placed_of_bindInterface {resolver implementer : Address} {path : String}
    {interfaceId : InterfaceId}
    (h : bindInterface l d resolver path interfaceId implementer s = (.ok record, s')) :
    Placed (.bindInterface (.address resolver) path interfaceId (.address implementer)) record := by
  obtain ⟨hpath, hnode⟩ := place_of_execute h
  exact ⟨hpath, by rw [Assignment.Consistent, hpath, hnode]; rfl⟩

end Assignments

/-! ## Records of a run -/

theorem placed_of_recorded {deployer : Address} {naming : Except DeployError Address}
    {registry : Registry} {step : WiringStep} {m : Submission × Assignment}
    (h : Recorded deployer naming registry step m) : Placed step m.2 := by
  obtain ⟨i, receipt, hintent, -, -, -, hrecord⟩ := h
  rw [hrecord]
  cases step with
  | awaitPropagation path owner => cases hintent
  | assignSubnode parent label owner =>
    obtain ⟨_, -, h⟩ := bind_eq_ok (Option.some.inj hintent)
    obtain ⟨_, -, h⟩ := bind_eq_ok h
    cases h
    exact placed_subnode owner rfl rfl
  | bindResolver path resolver =>
    obtain ⟨_, -, h⟩ := bind_eq_ok (Option.some.inj hintent)
    obtain ⟨_, -, h⟩ := bind_eq_ok h
    cases h
    exact ⟨rfl, rfl⟩
  | bindInterface resolver path interfaceId implementer =>
    obtain ⟨_, -, h⟩ := bind_eq_ok (Option.some.inj hintent)
    obtain ⟨_, -, h⟩ := bind_eq_ok h
    cases h
    exact ⟨rfl, rfl⟩
  | authorizeController resource controller =>
    obtain ⟨_, -, h⟩ := bind_eq_ok (Option.some.inj hintent)
    obtain ⟨_, -, h⟩ := bind_eq_ok h
    cases h
    exact ⟨rfl, rfl⟩

theorem Shows.placed {l : Ledger σ} {plan : Plan} {start registry : Registry}
    {deployed : List Component} {taken : List WiringStep} {assignments : List Assignment}
    {made : List (Submission × Resource)} {noted : List (Submission × Assignment)}
    (h : Shows l plan start deployed taken registry assignments made noted) :
    List.Forall₂ Placed (taken.filter assigns) assignments := by
  rw [h.assignments, List.forall₂_map_right_iff]
  exact h.recorded.imp fun _ _ => placed_of_recorded

/-- The records of a run belong to the steps it took, whatever stopped it. -/
theorem placed_of_ran {l : Ledger σ} {plan : Plan} {settings : Settings} {start : Registry}
    {s t : Session σ} {outcome : Except Failure Report}
    (h : Ran l plan settings (AfterComponents l plan start s) (AfterSteps l plan start s) outcome
      t) :
    ∃ taken, taken <+: plan.wiring ∧
      List.Forall₂ Placed (taken.filter assigns) (reportOf outcome).assignments := by
  cases h with
  | deployed hregistry hdeployed =>
    obtain ⟨made, hshows, -⟩ := hdeployed.account
    exact ⟨[], List.nil_prefix, hshows.placed⟩
  | wired hwired =>
    obtain ⟨made, noted, hshows, -⟩ := hwired.account
    exact ⟨plan.wiring, List.prefix_rfl, hshows.placed⟩
  | deploying hsplit hdeployed hfailed =>
    obtain ⟨made, hshows, -⟩ := hdeployed.account
    exact ⟨[], List.nil_prefix, hshows.placed⟩
  | unnamed hregistry haddress hdeployed =>
    obtain ⟨made, hshows, -⟩ := hdeployed.account
    exact ⟨[], List.nil_prefix, hshows.placed⟩
  | wiring hsplit hwired hfailed =>
    obtain ⟨made, noted, hshows, -⟩ := hwired.account
    exact ⟨_, ⟨_, hsplit.symm⟩, hshows.placed⟩

/-- **Where records place their assignments**, one by one and in the report of a run. -/
structure Placing (l : Ledger σ) : Prop where
  subnode : ∀ {d parent label owner s record s'},
    assignSubnode l d parent label owner s = (.ok record, s') →
    Placed (.assignSubnode parent label (.address owner)) record
  resolver : ∀ {d path resolver s record s'}, bindResolver l d path resolver s = (.ok record, s') →
    Placed (.bindResolver path (.address resolver)) record
  interface : ∀ {d resolver path interfaceId implementer s record s'},
    bindInterface l d resolver path interfaceId implementer s = (.ok record, s') →
    Placed (.bindInterface (.address resolver) path interfaceId (.address implementer)) record
  run : ∀ plan settings start s, ∃ taken, taken <+: plan.wiring ∧ List.Forall₂ Placed
    (taken.filter assigns) (reportOf (run l plan settings start s).1).assignments

/-- **The path and the node of a record denote the same position**, if what is assigned below a
parent is one label. -/
theorem place_run (l : Ledger σ) : Placing l where
  subnode := placed_of_assignSubnode
  resolver := placed_of_bindResolver
  interface := placed_of_bindInterface
  run plan settings start s := placed_of_ran (standing_of_run l plan settings start s)

/-- A ledger that grants every request. -/
def granting : Ledger Unit where
  deployer := .zero 20
  submit _ w := (.ok (.zero 32), w)
  await _ _ w := .settled 0 (.ok ⟨.zero 32, 0, true, some (.zero 20), none⟩) w
  owner _ _ w := ⟨.ok (.zero 20), 0, w⟩

theorem place_run_granting : ∃ record s',
    assignSubnode granting ⟨.zero 20, 120, false⟩ "eth" "alice" (.zero 20) { ledger := () } =
      (.ok record, s') ∧ record.Consistent := by
  obtain ⟨record, s', h⟩ : ∃ record s', assignSubnode granting ⟨.zero 20, 120, false⟩ "eth" "alice"
      (.zero 20) { ledger := () } = (.ok record, s') := ⟨_, _, rfl⟩
  obtain ⟨-, -, -, hconsistent⟩ := (place_run granting).subnode h
  exact ⟨record, s', h, hconsistent (by decide)⟩

/-- A plan that assigns the empty label below the root. -/
def unlabelled : Plan :=
  ⟨[{ name := "Root" }], some "Root", [.assignSubnode "" "" .deployer]⟩

set_option maxRecDepth 100000 in
/-- The empty label below the root is recorded with the path of the root itself. -/
theorem not_consistent_unlabelled :
    Plan.make unlabelled.components unlabelled.registry unlabelled.wiring = .ok unlabelled ∧
      ∃ report s' record, run granting unlabelled {} {} { ledger := () } = (.ok report, s') ∧
        report.assignments = [record] ∧ record.path = some "" ∧
        record.node = some (Naming.child Naming.root "") ∧ ¬ record.Consistent := by
  have hchild : Naming.child Naming.root "" ≠ Naming.root := by decide +kernel
  refine ⟨by cbv, _, _, _, rfl, rfl, rfl, rfl, fun hconsistent => ?_⟩
  exact hchild (Option.some.inj hconsistent)

end Run

end Rollout
