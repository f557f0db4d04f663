import Rollout.Plan
import Rollout.Proofs.Plan.LeastOrder

/-!
# Proofs/Plan/Checked — what a plan that passed its check guarantees

`Plan.make` sorts the components and looks at every name that the plan mentions.  In a plan that it
lets through (`Checked`) names are unambiguous, components refer only to components before them, and
the naming registry and the principals of all steps are components.
-/

namespace Rollout.Plan

theorem contains_iff {components : List Component} {name : String} :
    contains components name = true ↔ name ∈ components.map Component.name := by
  simp [contains]

/-- A registry that passed is a component, and no registry goes with no steps. -/
theorem registryFault?_eq_none {components : List Component} {registry : Option String}
    {wiring : List WiringStep} (h : registryFault? components registry wiring = none) :
    (∀ name, registry = some name → name ∈ components.map Component.name) ∧
      (registry = none → wiring = []) := by
  cases registry with
  | some name =>
    rw [registryFault?] at h
    split at h
    · next hcontains => simpa using contains_iff.1 hcontains
    · cases h
  | none =>
    cases wiring with
    | nil => simp
    | cons step rest => cases h

theorem firstDangling?_eq_none {components : List Component} {wiring : List WiringStep}
    (h : firstDangling? components wiring = none) :
    ∀ step ∈ wiring, ∀ name, Principal.component name ∈ step.principals →
      name ∈ components.map Component.name := by
  induction wiring with
  | nil => simp
  | cons step rest ih =>
    rw [firstDangling?] at h
    split at h
    · cases h
    · next hfound =>
      refine List.forall_mem_cons.2 ⟨fun name hname => contains_iff.1 ?_, ih h⟩
      have hmem : name ∈ step.principals.filterMap Principal.component? :=
        List.mem_filterMap.2 ⟨_, hname, rfl⟩
      simpa using List.find?_eq_none.1 hfound name hmem

/-- **What a plan that passed its check guarantees.** -/
structure Checked (plan : Plan) : Prop where
  nodup : (plan.components.map Component.name).Nodup
  arranged : Arranged [] plan.components
  registry : ∀ name, plan.registry = some name → name ∈ plan.components.map Component.name
  /-- Only a plan without steps does without a registry. -/
  wiring : plan.registry = none → plan.wiring = []
  principals : ∀ step ∈ plan.wiring, ∀ name, Principal.component name ∈ step.principals →
    name ∈ plan.components.map Component.name

theorem checked_of_make {components : List Component} {registry : Option String}
    {wiring : List WiringStep} {plan : Plan} (h : make components registry wiring = .ok plan) :
    plan.Checked := by
  rw [make] at h
  split at h
  · cases h
  · next sorted horder =>
    split at h
    · cases h
    · next hregistry =>
      split at h
      · cases h
      · next hdangling =>
        cases h
        obtain ⟨hnodup, -, harrange⟩ := order_eq_ok.1 horder
        have hperm := (perm_of_arrange harrange).map Component.name
        obtain ⟨hnamed, hempty⟩ := registryFault?_eq_none hregistry
        exact ⟨hperm.nodup_iff.2 hnodup, arranged_of_arrange harrange, hnamed, hempty,
          firstDangling?_eq_none hdangling⟩

/-! ## The components before one -/

theorem Arranged.references {placed : List String} {earlier later : List Component} {c : Component}
    (h : Arranged placed (earlier ++ c :: later)) :
    ∀ name ∈ c.references, name ∈ placed ∨ name ∈ earlier.map Component.name := by
  induction earlier generalizing placed with
  | nil => exact fun name hname => .inl (h.1 name hname)
  | cons b earlier ih =>
    intro name hname
    rcases ih h.2 name hname with hplaced | hearlier
    · rcases List.mem_cons.1 hplaced with rfl | hplaced
      · exact .inr (List.mem_cons_self ..)
      · exact .inl hplaced
    · exact .inr (List.mem_cons_of_mem _ hearlier)

/-- Components that are in order are declared. -/
theorem Arranged.declared {components : List Component} (h : Arranged [] components) :
    Declared components := by
  intro c hc name hname
  obtain ⟨earlier, later, rfl⟩ := List.append_of_mem hc
  have hearlier := (h.references name hname).resolve_left List.not_mem_nil
  rw [List.map_append]
  exact List.mem_append_left _ hearlier

/-- Components that are in order are accepted as they are. -/
theorem make_of_arranged {components : List Component} {registry : Option String}
    {wiring : List WiringStep} (hnodup : (components.map Component.name).Nodup)
    (harranged : Arranged [] components)
    (hregistry : registryFault? components registry wiring = none)
    (hdangling : firstDangling? components wiring = none) :
    make components registry wiring = .ok ⟨components, registry, wiring⟩ := by
  have horder : order components = .ok components :=
    order_eq_ok.2 ⟨hnodup, harranged.declared, arrange_of_arranged harranged⟩
  rw [make, horder]
  simp only [hregistry, hdangling]

namespace Checked

variable {plan : Plan} {earlier later : List Component} {c : Component}

/-- A component refers only to components before it. -/
theorem references (h : plan.Checked) (hsplit : plan.components = earlier ++ c :: later) :
    ∀ name ∈ c.references, name ∈ earlier.map Component.name := by
  have harranged := h.arranged
  rw [hsplit] at harranged
  intro name hname
  exact (harranged.references name hname).resolve_left (List.not_mem_nil)

/-- No component before one has its name. -/
theorem name_notMem (h : plan.Checked) (hsplit : plan.components = earlier ++ c :: later) :
    c.name ∉ earlier.map Component.name := by
  have hnodup := h.nodup
  rw [hsplit, List.map_append, List.map_cons] at hnodup
  intro hmem
  exact List.disjoint_of_nodup_append hnodup hmem (List.mem_cons_self ..)

end Checked

end Rollout.Plan
