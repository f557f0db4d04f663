import Mathlib.Data.Fintype.EquivFin
import Mathlib.Data.Fintype.Sets
import Mathlib.Logic.Relation
import Rollout.Proofs.Plan.LeastOrder

/-!
# Proofs/Plan/Verdict — when components have no order, and what is named then

Components fail to be ordered for three reasons: a name that is declared again, a reference to
nothing that is declared, or references that run in a circle.  The first two are found by reading the
list from the front.  The third is where `arrange` is stuck: what it has placed refers only to what
was placed before and leads to no circle (`not_leadsToCycle_of_arranged`), and each component that is
left refers to another one that is left, which among finitely many has to lead to a circle
(`leadsToCycle_of_stuck`).
-/

namespace Rollout.Plan

variable {components : List Component}

/-! ## Names that repeat -/

/-- **The first component whose name occurred before.** -/
inductive RepeatsFirst (components : List Component) : String → Prop where
  | intro {before after : List Component} {c : Component} (hsplit : components = before ++ c :: after)
      (hnodup : (before.map Component.name).Nodup) (hrepeated : c.name ∈ before.map Component.name) :
      RepeatsFirst components c.name

theorem exists_of_firstRepeated? {seen : List String} {name : String}
    (h : firstRepeated? seen components = some name) :
    ∃ before c after, components = before ++ c :: after ∧ c.name = name ∧
      (before.map Component.name).Nodup ∧ (∀ b ∈ before, b.name ∉ seen) ∧
      (c.name ∈ seen ∨ c.name ∈ before.map Component.name) := by
  induction components generalizing seen with
  | nil => cases h
  | cons c rest ih =>
    rw [firstRepeated?] at h
    split at h
    · next hseen => exact ⟨[], c, rest, rfl, Option.some.inj h, by simp, by simp, .inl hseen⟩
    · next hfresh =>
      obtain ⟨before, d, after, rfl, hname, hnodup, hbefore, hrepeated⟩ := ih h
      have hnew : ∀ b ∈ before, b.name ≠ c.name ∧ b.name ∉ seen := fun b hb =>
        not_or.1 (List.mem_cons.not.1 (hbefore b hb))
      refine ⟨c :: before, d, after, rfl, hname, ?_, ?_, ?_⟩
      · rw [List.map_cons, List.nodup_cons]
        refine ⟨fun hmem => ?_, hnodup⟩
        obtain ⟨b, hb, hsame⟩ := List.mem_map.1 hmem
        exact (hnew b hb).1 hsame
      · exact List.forall_mem_cons.2 ⟨hfresh, fun b hb => (hnew b hb).2⟩
      · rw [List.map_cons, List.mem_cons, or_comm, or_assoc]
        rcases hrepeated with hseen | hmem
        · exact (List.mem_cons.1 hseen).imp_right .inr
        · exact .inr (.inl hmem)

theorem repeatsFirst_of_firstRepeated? {name : String}
    (h : firstRepeated? [] components = some name) : RepeatsFirst components name := by
  obtain ⟨before, c, after, hsplit, rfl, hnodup, -, hrepeated⟩ := exists_of_firstRepeated? h
  exact .intro hsplit hnodup (hrepeated.resolve_left List.not_mem_nil)

/-! ## References to nothing -/

/-- **The first component with a reference to nothing declared**, and the first such reference,
arguments before libraries. -/
inductive LacksFirst (components : List Component) : String → String → Prop where
  | intro {before after : List Component} {c : Component} {known others : List String}
      {missing : String} (hsplit : components = before ++ c :: after)
      (hbefore : ∀ b ∈ before, ∀ d ∈ b.references, d ∈ components.map Component.name)
      (hreferences : c.references = known ++ missing :: others)
      (hknown : ∀ d ∈ known, d ∈ components.map Component.name)
      (hmissing : missing ∉ components.map Component.name) :
      LacksFirst components c.name missing

/-- Repetitions do not change what is found first. -/
theorem find?_eraseDups {α : Type} [DecidableEq α] (p : α → Bool) (items : List α) :
    items.eraseDups.find? p = items.find? p := by
  induction hlength : items.length using Nat.strongRecOn generalizing items with
  | ind n ih =>
    cases items with
    | nil => rfl
    | cons a rest =>
      rw [List.eraseDups_cons, List.find?_cons, List.find?_cons]
      cases hp : p a with
      | true => rfl
      | false =>
        have hshorter : (rest.filter fun b => !b == a).length < n := by
          rw [← hlength, List.length_cons]
          exact Nat.lt_succ_of_le (List.length_filter_le ..)
        have hsame : (fun b => decide ((!b == a) = true ∧ p b = true)) = p := funext fun b => by
          by_cases hb : b = a <;> simp [hb, hp]
        rw [ih _ hshorter _ rfl, List.find?_filter, hsame]

theorem exists_of_firstUnknown? {names : List String} {name missing : String}
    (h : firstUnknown? names components = some (name, missing)) :
    ∃ before c after, components = before ++ c :: after ∧ c.name = name ∧
      (∀ b ∈ before, ∀ d ∈ b.references, d ∈ names) ∧
      c.references.find? (· ∉ names) = some missing := by
  induction components with
  | nil => cases h
  | cons c rest ih =>
    rw [firstUnknown?, Component.dependencies, find?_eraseDups] at h
    split at h
    · next missing' hfound =>
      obtain ⟨rfl, rfl⟩ := Prod.mk.inj (Option.some.inj h)
      exact ⟨[], c, rest, rfl, rfl, by simp, hfound⟩
    · next hnone =>
      obtain ⟨before, d, after, rfl, hname, hbefore, hfound⟩ := ih h
      have hc : ∀ d ∈ c.references, d ∈ names := by simpa using List.find?_eq_none.1 hnone
      exact ⟨c :: before, d, after, rfl, hname, List.forall_mem_cons.2 ⟨hc, hbefore⟩, hfound⟩

theorem lacksFirst_of_firstUnknown? {name missing : String}
    (h : firstUnknown? (components.map Component.name) components = some (name, missing)) :
    LacksFirst components name missing := by
  obtain ⟨before, c, after, hsplit, rfl, hbefore, hfound⟩ := exists_of_firstUnknown? h
  obtain ⟨hmissing, known, others, hreferences, hknown⟩ := List.find?_eq_some_iff_append.1 hfound
  refine .intro hsplit hbefore hreferences (fun d hd => ?_) (by simpa using hmissing)
  simpa using hknown d hd

/-! ## Circles -/

/-- A component needs each component that it refers to. -/
def Needs (components : List Component) (c b : Component) : Prop :=
  b ∈ components ∧ b.name ∈ c.references

instance (components : List Component) (c b : Component) : Decidable (Needs components c b) :=
  inferInstanceAs (Decidable (_ ∧ _))

/-- Some component needs itself in the end. -/
def Cyclic (components : List Component) : Prop :=
  ∃ c, Relation.TransGen (Needs components) c c

/-- A component that needs itself in the end can be reached from this one. -/
def LeadsToCycle (components : List Component) (c : Component) : Prop :=
  ∃ b, Relation.ReflTransGen (Needs components) c b ∧ Relation.TransGen (Needs components) b b

theorem LeadsToCycle.of_needs {c b : Component} (hneeds : Needs components c b)
    (h : LeadsToCycle components b) : LeadsToCycle components c := by
  obtain ⟨target, hreach, hcycle⟩ := h
  exact ⟨target, hreach.head hneeds, hcycle⟩

/-- What leads to a circle needs something that does. -/
theorem LeadsToCycle.exists_needs {c : Component} (h : LeadsToCycle components c) :
    ∃ b, Needs components c b ∧ LeadsToCycle components b := by
  obtain ⟨target, hreach, hcycle⟩ := h
  rcases hreach.cases_head with rfl | ⟨b, hneeds, hrest⟩
  · obtain ⟨b, hneeds, hback⟩ := Relation.TransGen.head'_iff.1 hcycle
    exact ⟨b, hneeds, c, hback, hcycle⟩
  · exact ⟨b, hneeds, target, hrest, hcycle⟩

/-- **What is arranged leads to no circle**, if nothing placed before does. -/
theorem not_leadsToCycle_of_arranged (hnodup : (components.map Component.name).Nodup)
    {placed : List String} {sorted : List Component} (h : Arranged placed sorted)
    (hsub : ∀ c ∈ sorted, c ∈ components)
    (hplaced : ∀ b ∈ components, b.name ∈ placed → ¬ LeadsToCycle components b) :
    ∀ c ∈ sorted, ¬ LeadsToCycle components c := by
  induction sorted generalizing placed with
  | nil => simp
  | cons c rest ih =>
    obtain ⟨hreferences, hrest⟩ := h
    obtain ⟨hc, hsub⟩ := List.forall_mem_cons.1 hsub
    have hfree : ¬ LeadsToCycle components c := fun hleads => by
      obtain ⟨b, ⟨hb, hname⟩, hleads⟩ := hleads.exists_needs
      exact hplaced b hb (hreferences b.name hname) hleads
    refine List.forall_mem_cons.2 ⟨hfree, ih hrest hsub fun b hb hname => ?_⟩
    rcases List.mem_cons.1 hname with hsame | hname
    · rwa [List.inj_on_of_nodup_map hnodup hb hc hsame]
    · exact hplaced b hb hname

/-- **Where each component needs another one of the same list, all lead to circles.** -/
theorem leadsToCycle_of_stuck {stuck : List Component}
    (h : ∀ c ∈ stuck, ∃ b ∈ stuck, Needs components c b) :
    ∀ c ∈ stuck, LeadsToCycle components c := by
  -- what leads to no circle comes after everything it needs, and finitely many have a last one
  let below (b c : { c // c ∈ stuck }) : Prop :=
    Relation.TransGen (Needs components) c.1 b.1 ∧ ¬ LeadsToCycle components c.1
  have : IsTrans _ below := ⟨fun _ _ _ hba hcb => ⟨hcb.1.trans hba.1, hcb.2⟩⟩
  have : Std.Irrefl below := ⟨fun c hbelow => hbelow.2 ⟨c.1, .refl, hbelow.1⟩⟩
  have hfounded : WellFounded below := Finite.wellFounded_of_trans_of_irrefl below
  refine fun c hc => hfounded.induction (C := fun c => LeadsToCycle components c.1) ⟨c, hc⟩ ?_
  intro c ih
  by_contra hfree
  obtain ⟨b, hb, hneeds⟩ := h c.1 c.2
  exact hfree ((ih ⟨b, hb⟩ ⟨.single hneeds, hfree⟩).of_needs hneeds)

/-! ## Where the arrangement is stuck -/

theorem takeReady_eq_none {placed : List String} {pending : List Component}
    (h : takeReady placed pending = none) : ∀ c ∈ pending, isReady placed c = false := by
  induction pending with
  | nil => simp
  | cons c rest ih =>
    rw [takeReady] at h
    split at h
    · cases h
    · next hc =>
      split at h
      · cases h
      · next hrest => exact List.forall_mem_cons.2 ⟨by simpa using hc, ih hrest⟩

/-- **What was placed before the arrangement was stuck, and what is left**: each component that is
left refers to something that was not placed. -/
structure Stuck (placed : List String) (pending sorted stuck : List Component) : Prop where
  arranged : Arranged placed sorted
  perm : (sorted ++ stuck).Perm pending
  sublist : stuck.Sublist pending
  nonempty : stuck ≠ []
  blocked : ∀ c ∈ stuck, ∃ d ∈ c.references, d ∉ placed ∧ d ∉ sorted.map Component.name

theorem exists_stuck_of_arrange {placed : List String} {pending stuck : List Component}
    (h : arrange placed pending = .error stuck) : ∃ sorted, Stuck placed pending sorted stuck := by
  induction hlength : pending.length generalizing placed pending with
  | zero => rw [List.eq_nil_of_length_eq_zero hlength, arrange_nil] at h; cases h
  | succ n ih =>
    have hne : pending ≠ [] := List.ne_nil_of_length_eq_add_one hlength
    cases htake : takeReady placed pending with
    | none =>
      rw [arrange_of_takeReady_none htake hne] at h
      cases h
      refine ⟨[], trivial, .refl _, .refl _, hne, fun c hc => ?_⟩
      have hblocked := isReady_iff.not.1 (Bool.eq_false_iff.1 (takeReady_eq_none htake c hc))
      obtain ⟨d, hd⟩ := not_forall.1 hblocked
      obtain ⟨hmem, hplaced⟩ := Classical.not_imp.1 hd
      exact ⟨d, hmem, hplaced, List.not_mem_nil⟩
    | some choice =>
      obtain ⟨next, others⟩ := choice
      have hshorter := length_of_takeReady htake
      obtain ⟨before, after, rfl, rfl, hready, -⟩ := takeReady_eq_some htake
      rw [arrange_of_takeReady htake] at h
      have hrest : arrange (next.name :: placed) (before ++ after) = .error stuck := by
        cases hrest : arrange (next.name :: placed) (before ++ after) with
        | ok sorted => rw [hrest] at h; cases h
        | error left => rw [hrest] at h; exact h
      obtain ⟨sorted, hstuck⟩ := ih hrest (by omega)
      refine ⟨next :: sorted, ⟨isReady_iff.1 hready, hstuck.arranged⟩, ?_, ?_, hstuck.nonempty, ?_⟩
      · exact (hstuck.perm.cons next).trans List.perm_middle.symm
      · exact hstuck.sublist.trans
          ((List.append_sublist_append_left before).2 (List.sublist_cons_self next after))
      · intro c hc
        obtain ⟨d, hd, hplaced, hsorted⟩ := hstuck.blocked c hc
        simp only [List.mem_cons, not_or] at hplaced
        refine ⟨d, hd, hplaced.2, ?_⟩
        simp [hplaced.1, hsorted]

section Declared

variable (hnodup : (components.map Component.name).Nodup) (hdeclared : Declared components)
include hnodup hdeclared

/-- **What the arrangement leaves over are the components that lead to circles.** -/
theorem mem_stuck_iff {sorted stuck : List Component} (h : Stuck [] components sorted stuck) :
    ∀ c ∈ components, (c ∈ stuck ↔ LeadsToCycle components c) := by
  have hleft : ∀ c ∈ stuck, ∃ b ∈ stuck, Needs components c b := by
    intro c hc
    obtain ⟨d, hd, -, hsorted⟩ := h.blocked c hc
    obtain ⟨b, hb, rfl⟩ := List.mem_map.1 (hdeclared c (h.sublist.subset hc) d hd)
    have hmem := List.mem_append.1 (h.perm.mem_iff.2 hb)
    have hnot : b ∉ sorted := fun hin => hsorted (List.mem_map_of_mem hin)
    exact ⟨b, hmem.resolve_left hnot, hb, hd⟩
  intro c hc
  refine ⟨leadsToCycle_of_stuck hleft c, fun hleads => ?_⟩
  have hmem := List.mem_append.1 (h.perm.mem_iff.2 hc)
  refine hmem.resolve_left fun hin => ?_
  have hsub : ∀ b ∈ sorted, b ∈ components := fun b hb =>
    h.perm.mem_iff.1 (List.mem_append_left _ hb)
  exact not_leadsToCycle_of_arranged hnodup h.arranged hsub (by simp) c hin hleads

theorem exists_arrange_of_cyclic (hcyclic : Cyclic components) :
    ∃ stuck, arrange [] components = .error stuck ∧ stuck.Sublist components ∧
      ∀ c ∈ components, (c ∈ stuck ↔ LeadsToCycle components c) := by
  cases harrange : arrange [] components with
  | error stuck =>
    obtain ⟨sorted, hstuck⟩ := exists_stuck_of_arrange harrange
    exact ⟨stuck, rfl, hstuck.sublist, mem_stuck_iff hnodup hdeclared hstuck⟩
  | ok sorted =>
    obtain ⟨c, hcycle⟩ := hcyclic
    obtain ⟨_, -, hc, -⟩ := Relation.TransGen.tail'_iff.1 hcycle
    have hperm := perm_of_arrange harrange
    have hfree := not_leadsToCycle_of_arranged hnodup (arranged_of_arrange harrange)
      (fun b hb => hperm.mem_iff.1 hb) (by simp) c (hperm.mem_iff.2 hc)
    exact absurd ⟨c, .refl, hcycle⟩ hfree

theorem exists_arrange_of_not_cyclic (hfree : ¬ Cyclic components) :
    ∃ sorted, arrange [] components = .ok sorted := by
  cases harrange : arrange [] components with
  | ok sorted => exact ⟨sorted, rfl⟩
  | error stuck =>
    obtain ⟨sorted, hstuck⟩ := exists_stuck_of_arrange harrange
    obtain ⟨c, hc⟩ := List.exists_mem_of_ne_nil stuck hstuck.nonempty
    have hmem := hstuck.sublist.subset hc
    obtain ⟨b, -, hcycle⟩ := (mem_stuck_iff hnodup hdeclared hstuck c hmem).1 hc
    exact absurd ⟨b, hcycle⟩ hfree

end Declared

/-! ## The verdict -/

theorem order_of_declared (hnodup : (components.map Component.name).Nodup)
    (hdeclared : Declared components) :
    order components = (arrange [] components).mapError fun stuck =>
      .dependencyCycle (stuck.map Component.name) := by
  have hrepeated : firstRepeated? [] components = none :=
    firstRepeated?_eq_none.2 ⟨hnodup, by simp⟩
  simp only [order, hrepeated, firstUnknown?_eq_none.2 hdeclared]
  cases arrange [] components <;> rfl

/-- **Every list of components gets its verdict.**  A name that is declared again is reported for the
first component whose name occurred before; else a reference to nothing that is declared, for the
first component that has one, and its first; else, if some component needs itself in the end, those
that lead there, in the order of their declaration; and else the components have an order. -/
theorem order_classified (components : List Component) :
    (¬ (components.map Component.name).Nodup → ∃ name, RepeatsFirst components name ∧
        order components = .error (.invalidPlan (.declaredTwice name))) ∧
      ((components.map Component.name).Nodup → ¬ Declared components → ∃ name missing,
        LacksFirst components name missing ∧
          order components = .error (.unknownDependency name missing)) ∧
      ((components.map Component.name).Nodup → Declared components → Cyclic components →
        ∃ members : List Component, members.Sublist components ∧
          (∀ c ∈ components, (c ∈ members ↔ LeadsToCycle components c)) ∧
          order components = .error (.dependencyCycle (members.map Component.name))) ∧
      ((components.map Component.name).Nodup → Declared components → ¬ Cyclic components →
        ∃ sorted, order components = .ok sorted) := by
  refine ⟨fun hrepeats => ?_, fun hnodup hlacks => ?_, fun hnodup hdeclared hcyclic => ?_,
    fun hnodup hdeclared hfree => ?_⟩
  · cases hfound : firstRepeated? [] components with
    | none => exact absurd (firstRepeated?_eq_none.1 hfound).1 hrepeats
    | some name =>
      refine ⟨name, repeatsFirst_of_firstRepeated? hfound, ?_⟩
      rw [order, hfound]
  · have hrepeated : firstRepeated? [] components = none :=
      firstRepeated?_eq_none.2 ⟨hnodup, by simp⟩
    cases hfound : firstUnknown? (components.map Component.name) components with
    | none => exact absurd (firstUnknown?_eq_none.1 hfound) hlacks
    | some fault =>
      refine ⟨fault.1, fault.2, lacksFirst_of_firstUnknown? hfound, ?_⟩
      simp only [order, hrepeated, hfound]
  · obtain ⟨stuck, harrange, hsub, hiff⟩ := exists_arrange_of_cyclic hnodup hdeclared hcyclic
    refine ⟨stuck, hsub, hiff, ?_⟩
    rw [order_of_declared hnodup hdeclared, harrange]
    rfl
  · obtain ⟨sorted, harrange⟩ := exists_arrange_of_not_cyclic hnodup hdeclared hfree
    refine ⟨sorted, ?_⟩
    rw [order_of_declared hnodup hdeclared, harrange]
    rfl

/-- A controller and a resolver that need each other, one of them as a library, a registrar that
needs the controller, and two components that need neither. -/
def entangled : List Component :=
  [{ name := "registry" }, { name := "registrar", args := [.component "controller"] },
    { name := "controller", args := [.deployer], libraries := [⟨"Lookup", "resolver"⟩] },
    { name := "oracle", args := [.component "registry"] },
    { name := "resolver", args := [.component "registry", .component "controller"] }]

theorem cyclic_entangled : Cyclic entangled := by
  have hto : Needs entangled (entangled[2]) (entangled[4]) := by decide
  have hback : Needs entangled (entangled[4]) (entangled[2]) := by decide
  exact ⟨entangled[2], .tail (.single hto) hback⟩

theorem order_classified_entangled :
    (entangled.map Component.name).Nodup ∧ Declared entangled ∧ Cyclic entangled ∧
      ∃ members : List Component, members.Sublist entangled ∧
        (∀ c ∈ entangled, (c ∈ members ↔ LeadsToCycle entangled c)) ∧
        members.map Component.name = ["registrar", "controller", "resolver"] := by
  have hnodup : (entangled.map Component.name).Nodup := by decide
  have hdeclared : Declared entangled := by decide
  obtain ⟨members, hsub, hiff, horder⟩ :=
    (order_classified entangled).2.2.1 hnodup hdeclared cyclic_entangled
  have hcomputed : order entangled =
      .error (.dependencyCycle ["registrar", "controller", "resolver"]) := by cbv
  rw [hcomputed] at horder
  refine ⟨hnodup, hdeclared, cyclic_entangled, members, hsub, hiff, ?_⟩
  simpa using horder.symm

end Rollout.Plan
