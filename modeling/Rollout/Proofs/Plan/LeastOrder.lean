import Mathlib.Data.List.Nodup
import Rollout.Plan.Order

/-!
# Proofs/Plan/LeastOrder — the deployment order is the least one that respects references

`arrange` places the first ready component again and again. What it makes is *arranged*: each
component refers only to what stands before it.  It is also the least such list: where another
arranged list of the same components first differs, the component there is ready as well, so the
greedy choice, being the first ready one, was declared before it.

The recursion of `arrange` is on what is pending, its result is built from the front; all inductions
below are on the result, one placed component at a time (`arrange_eq_cons`).
-/

namespace Rollout.Plan

/-! ## One choice -/

theorem isReady_iff {placed : List String} {c : Component} :
    isReady placed c = true ↔ ∀ d ∈ c.references, d ∈ placed := by
  simp [isReady, Component.dependencies, List.mem_eraseDups]

/-- The choice splits the pending components: none before it is ready. -/
theorem takeReady_eq_some {placed : List String} {next : Component} :
    ∀ {pending others : List Component}, takeReady placed pending = some (next, others) →
      ∃ before after, pending = before ++ next :: after ∧ others = before ++ after ∧
        isReady placed next = true ∧ ∀ c ∈ before, isReady placed c = false := by
  intro pending
  induction pending with
  | nil => intro _ h; simp [takeReady] at h
  | cons c rest ih =>
    intro others h
    rw [takeReady] at h
    split at h
    · next hc =>
      obtain ⟨rfl, rfl⟩ : c = next ∧ rest = others := by simpa using h
      exact ⟨[], rest, rfl, rfl, hc, by simp⟩
    · next hc =>
      split at h
      · next chosen left hrest =>
        obtain ⟨rfl, rfl⟩ : chosen = next ∧ c :: left = others := by simpa using h
        obtain ⟨before, after, rfl, rfl, hready, hbefore⟩ := ih hrest
        refine ⟨c :: before, after, rfl, rfl, hready, ?_⟩
        simpa [hc] using hbefore
      · simp at h

theorem takeReady_of_isReady {placed : List String} {c : Component} (rest : List Component)
    (h : isReady placed c = true) : takeReady placed (c :: rest) = some (c, rest) := by
  simp [takeReady, h]

/-! ## One step of the arrangement -/

theorem arrange_nil (placed : List String) : arrange placed [] = .ok [] := by
  rw [arrange]
  simp [takeReady]

theorem arrange_of_takeReady {placed : List String} {pending others : List Component}
    {next : Component} (h : takeReady placed pending = some (next, others)) :
    arrange placed pending = (arrange (next.name :: placed) others).map (next :: ·) := by
  rw [arrange]
  split
  · next next' others' found =>
    obtain ⟨rfl, rfl⟩ : next' = next ∧ others' = others := by simpa using found.symm.trans h
    cases arrange (next'.name :: placed) others' <;> rfl
  · next found => simp [found] at h

theorem arrange_of_takeReady_none {placed : List String} {pending : List Component}
    (h : takeReady placed pending = none) (hne : pending ≠ []) :
    arrange placed pending = .error pending := by
  rw [arrange]
  split
  · next found => simp [found] at h
  · simp [hne]

/-- Only nothing is arranged as nothing. -/
theorem arrange_eq_nil {placed : List String} {pending : List Component}
    (h : arrange placed pending = .ok []) : pending = [] := by
  by_contra hne
  cases htake : takeReady placed pending with
  | none => simp [arrange_of_takeReady_none htake hne] at h
  | some choice =>
    rw [arrange_of_takeReady htake] at h
    cases hrest : arrange (choice.1.name :: placed) choice.2 <;> simp [hrest, Except.map] at h

/-- **What stands first was the first ready component**, and the rest is the arrangement of the
others. -/
theorem arrange_eq_cons {placed : List String} {pending rest : List Component} {next : Component}
    (h : arrange placed pending = .ok (next :: rest)) :
    ∃ before after, pending = before ++ next :: after ∧ isReady placed next = true ∧
      (∀ c ∈ before, isReady placed c = false) ∧
      arrange (next.name :: placed) (before ++ after) = .ok rest := by
  have hne : pending ≠ [] := by
    rintro rfl
    simp [arrange_nil] at h
  cases htake : takeReady placed pending with
  | none => simp [arrange_of_takeReady_none htake hne] at h
  | some choice =>
    obtain ⟨chosen, others⟩ := choice
    rw [arrange_of_takeReady htake] at h
    cases hrest : arrange (chosen.name :: placed) others with
    | error stuck => simp [hrest, Except.map] at h
    | ok order =>
      obtain ⟨rfl, rfl⟩ : chosen = next ∧ order = rest := by simpa [hrest, Except.map] using h
      obtain ⟨before, after, hpending, rfl, hready, hbefore⟩ := takeReady_eq_some htake
      exact ⟨before, after, hpending, hready, hbefore, hrest⟩

/-! ## Arranged lists -/

/-- Each component refers only to what is placed or stands before it. -/
def Arranged (placed : List String) : List Component → Prop
  | [] => True
  | c :: rest => (∀ d ∈ c.references, d ∈ placed) ∧ Arranged (c.name :: placed) rest

theorem arranged_iff {placed : List String} {components : List Component} :
    Arranged placed components ↔
      ∀ i (hi : i < components.length), ∀ d ∈ components[i].references,
        d ∈ placed ∨ ∃ j, ∃ hj : j < i, components[j].name = d := by
  induction components generalizing placed with
  | nil => simp [Arranged]
  | cons c rest ih =>
    rw [Arranged, ih]
    constructor
    · rintro ⟨hc, hrest⟩ i hi d hd
      cases i with
      | zero => exact Or.inl (hc d hd)
      | succ i =>
        rcases hrest i (by simpa using hi) d hd with hplaced | ⟨j, hj, hname⟩
        · rcases List.mem_cons.1 hplaced with rfl | hplaced
          · exact Or.inr ⟨0, by omega, rfl⟩
          · exact Or.inl hplaced
        · exact Or.inr ⟨j + 1, by omega, hname⟩
    · intro h
      refine ⟨fun d hd => ?_, fun i hi d hd => ?_⟩
      · rcases h 0 (by simp) d hd with hplaced | ⟨j, hj, -⟩
        · exact hplaced
        · omega
      · rcases h (i + 1) (by simpa using hi) d hd with hplaced | ⟨j, hj, hname⟩
        · exact Or.inl (List.mem_cons_of_mem _ hplaced)
        · cases j with
          | zero => exact Or.inl (List.mem_cons.2 (Or.inl hname.symm))
          | succ j => exact Or.inr ⟨j, by omega, hname⟩

theorem perm_of_arrange {sorted : List Component} :
    ∀ {placed : List String} {pending : List Component},
      arrange placed pending = .ok sorted → sorted.Perm pending := by
  induction sorted with
  | nil => intro _ _ h; rw [arrange_eq_nil h]
  | cons next rest ih =>
    intro _ _ h
    obtain ⟨before, after, rfl, -, -, hrest⟩ := arrange_eq_cons h
    exact ((ih hrest).cons next).trans List.perm_middle.symm

theorem arranged_of_arrange {sorted : List Component} :
    ∀ {placed : List String} {pending : List Component},
      arrange placed pending = .ok sorted → Arranged placed sorted := by
  induction sorted with
  | nil => intros; trivial
  | cons next rest ih =>
    intro _ _ h
    obtain ⟨_, _, -, hready, -, hrest⟩ := arrange_eq_cons h
    exact ⟨isReady_iff.1 hready, ih hrest⟩

/-- An arranged list stays as it is. -/
theorem arrange_of_arranged {components : List Component} :
    ∀ {placed : List String}, Arranged placed components →
      arrange placed components = .ok components := by
  induction components with
  | nil => intro placed _; exact arrange_nil placed
  | cons c rest ih =>
    rintro placed ⟨hc, hrest⟩
    rw [arrange_of_takeReady (takeReady_of_isReady rest (isReady_iff.2 hc)), ih hrest]
    rfl

/-- Another ready component stands behind the one that was chosen. -/
theorem sublist_of_isReady {placed : List String} {before after : List Component}
    {next b : Component} (hbefore : ∀ c ∈ before, isReady placed c = false)
    (hready : isReady placed b = true) (hmem : b ∈ before ++ next :: after) (hne : b ≠ next) :
    [next, b].Sublist (before ++ next :: after) := by
  have hafter : b ∈ after := by
    rcases List.mem_append.1 hmem with hin | hin
    · have hnot := hbefore b hin
      simp [hready] at hnot
    · exact (List.mem_cons.1 hin).resolve_left hne
  have hnext : [next, b].Sublist (next :: after) :=
    (List.singleton_sublist.2 hafter).cons_cons next
  exact hnext.trans (List.sublist_append_right before _)

/-- **The exchange argument.**  Where an arranged list of the pending components first differs from
their arrangement, the arrangement has a component that was pending further in front. -/
theorem least_of_arrange {sorted : List Component} :
    ∀ {placed : List String} {pending other : List Component},
      arrange placed pending = .ok sorted → other.Perm pending → Arranged placed other →
        other ≠ sorted →
          ∃ common a b restSorted restOther, sorted = common ++ a :: restSorted ∧
            other = common ++ b :: restOther ∧ [a, b].Sublist pending := by
  induction sorted with
  | nil =>
    intro placed pending other h hperm _ hne
    rw [arrange_eq_nil h] at hperm
    exact absurd hperm.eq_nil hne
  | cons next rest ih =>
    intro placed pending other h hperm harranged hne
    obtain ⟨before, after, rfl, -, hbefore, hrest⟩ := arrange_eq_cons h
    cases other with
    | nil => simp at hperm
    | cons b restOther =>
      obtain ⟨hb, harranged⟩ := harranged
      by_cases hnext : b = next
      · subst hnext
        have hperm' : restOther.Perm (before ++ after) :=
          (hperm.trans List.perm_middle).cons_inv
        obtain ⟨common, x, y, s, o, rfl, rfl, hxy⟩ :=
          ih hrest hperm' harranged (by simpa using hne)
        refine ⟨b :: common, x, y, s, o, rfl, rfl, hxy.trans ?_⟩
        exact (List.append_sublist_append_left before).2 (List.sublist_cons_self b after)
      -- here they part: the other list goes on with a component that was ready, but not first
      · have hmem : b ∈ before ++ next :: after := hperm.mem_iff.1 (List.mem_cons_self ..)
        have hchosen := sublist_of_isReady hbefore (isReady_iff.2 hb) hmem hnext
        exact ⟨[], next, b, rest, restOther, rfl, rfl, hchosen⟩

/-! ## Declared names

`order` arranges a list only after two checks.  Passing them makes positions of names unambiguous,
so that an arranged list is one in which references point strictly backwards. -/

/-- Every component comes strictly after each component it refers to. -/
def DependenciesFirst (components : List Component) : Prop :=
  ∀ i, ∀ hi : i < components.length, ∀ j, ∀ hj : j < components.length,
    components[j].name ∈ components[i].references → j < i

instance : DecidablePred DependenciesFirst := fun components =>
  inferInstanceAs (Decidable (∀ i, ∀ hi : i < components.length, ∀ j, ∀ hj : j < components.length,
    components[j].name ∈ components[i].references → j < i))

/-- Whatever is referred to is declared. -/
def Declared (components : List Component) : Prop :=
  ∀ c ∈ components, ∀ d ∈ c.references, d ∈ components.map Component.name

instance : DecidablePred Declared := fun components =>
  inferInstanceAs (Decidable (∀ c ∈ components, ∀ d ∈ c.references,
    d ∈ components.map Component.name))

theorem firstRepeated?_eq_none {components : List Component} {seen : List String} :
    firstRepeated? seen components = none ↔
      (components.map Component.name).Nodup ∧ ∀ c ∈ components, c.name ∉ seen := by
  induction components generalizing seen with
  | nil => simp [firstRepeated?]
  | cons c rest ih =>
    by_cases hc : c.name ∈ seen
    · simp [firstRepeated?, hc]
    · rw [firstRepeated?, if_neg hc, ih]
      simp only [List.map_cons, List.nodup_cons, List.mem_map, List.mem_cons, forall_eq_or_imp]
      constructor
      · rintro ⟨hnodup, hrest⟩
        refine ⟨⟨?_, hnodup⟩, hc, fun x hx hseen => hrest x hx (Or.inr hseen)⟩
        rintro ⟨x, hx, hname⟩
        exact hrest x hx (Or.inl hname)
      · rintro ⟨⟨hfresh, hnodup⟩, -, hrest⟩
        refine ⟨hnodup, fun x hx hin => ?_⟩
        rcases hin with hname | hseen
        · exact hfresh ⟨x, hx, hname⟩
        · exact hrest x hx hseen

theorem firstUnknown?_eq_none {names : List String} {components : List Component} :
    firstUnknown? names components = none ↔
      ∀ c ∈ components, ∀ d ∈ c.references, d ∈ names := by
  induction components with
  | nil => simp [firstUnknown?]
  | cons c rest ih =>
    have hfind : c.dependencies.find? (fun d => decide (d ∉ names)) = none ↔
        ∀ d ∈ c.references, d ∈ names := by
      simp [List.find?_eq_none, Component.dependencies, List.mem_eraseDups]
    rw [firstUnknown?]
    split
    · next d hd =>
      refine iff_of_false (by simp) fun h => ?_
      rw [hfind.2 fun d hd => h c (List.mem_cons_self ..) d hd] at hd
      cases hd
    · next hd =>
      have hc := hfind.1 hd
      rw [ih, List.forall_mem_cons]
      exact (and_iff_right hc).symm

/-- `order` succeeds where `arrange` does, on names that are declared, and declared once. -/
theorem order_eq_ok {components sorted : List Component} :
    order components = .ok sorted ↔ (components.map Component.name).Nodup ∧ Declared components ∧
      arrange [] components = .ok sorted := by
  constructor
  · intro h
    rw [order] at h
    split at h
    · simp at h
    · next hrepeated =>
      split at h
      · simp at h
      · next hunknown =>
        refine ⟨(firstRepeated?_eq_none.1 hrepeated).1, firstUnknown?_eq_none.1 hunknown, ?_⟩
        cases harrange : arrange [] components <;> simp_all
  · rintro ⟨hnodup, hdeclared, harrange⟩
    have hrepeated : firstRepeated? [] components = none :=
      firstRepeated?_eq_none.2 ⟨hnodup, by simp⟩
    simp [order, hrepeated, firstUnknown?_eq_none.2 hdeclared, harrange]

theorem Declared.of_perm {components other : List Component} (h : Declared components)
    (hperm : other.Perm components) : Declared other := fun c hc d hd =>
  (hperm.map Component.name).mem_iff.2 (h c (hperm.mem_iff.1 hc) d hd)

theorem arranged_iff_dependenciesFirst {components : List Component}
    (hnodup : (components.map Component.name).Nodup) (hdeclared : Declared components) :
    Arranged [] components ↔ DependenciesFirst components := by
  rw [arranged_iff]
  constructor
  · intro h i hi j hj hname
    obtain ⟨k, hk, hsame⟩ := (h i hi _ hname).resolve_left (by simp)
    have hk' : k < (components.map Component.name).length := by
      rw [List.length_map]
      omega
    have hj' : j < (components.map Component.name).length := by rwa [List.length_map]
    have hget : (components.map Component.name)[k] = (components.map Component.name)[j] := by
      simpa using hsame
    have hkj : k = j := hnodup.getElem_inj_iff.1 hget
    omega
  · intro h i hi d hd
    obtain ⟨c, hc, rfl⟩ := List.mem_map.1 (hdeclared _ (List.getElem_mem hi) d hd)
    obtain ⟨j, hj, rfl⟩ := List.getElem_of_mem hc
    exact Or.inr ⟨j, h i hi j hj hd, rfl⟩

/-- What stands in front of another element of a list without repetitions has a smaller index. -/
theorem idxOf_lt_of_sublist {components : List Component} {a b : Component}
    (hnodup : components.Nodup) (h : [a, b].Sublist components) :
    components.idxOf a < components.idxOf b := by
  have hpairwise : components.Pairwise fun x y => components.idxOf x < components.idxOf y := by
    refine List.pairwise_iff_getElem.2 fun i j hi hj hij => ?_
    rwa [hnodup.idxOf_getElem i hi, hnodup.idxOf_getElem j hj]
  simpa using hpairwise.sublist h

/-- A deployment order of the declared components that is the least by position of declaration: any
other one has, where the two first differ, a component declared later. -/
structure IsLeastOrder (components sorted : List Component) : Prop where
  perm : sorted.Perm components
  dependenciesFirst : DependenciesFirst sorted
  least : ∀ other : List Component, other.Perm components → DependenciesFirst other →
    other ≠ sorted → ∃ common a b restSorted restOther, sorted = common ++ a :: restSorted ∧
      other = common ++ b :: restOther ∧ components.idxOf a < components.idxOf b

/-- **The deployment order is the least one that respects dependencies.**  So an order that is right
already is kept, and ordering twice changes nothing. -/
theorem order_least {components sorted : List Component} (h : order components = .ok sorted) :
    IsLeastOrder components sorted ∧ (DependenciesFirst components → sorted = components) ∧
      order sorted = .ok sorted := by
  obtain ⟨hnodup, hdeclared, harrange⟩ := order_eq_ok.1 h
  have hperm := perm_of_arrange harrange
  have hnodupOf {other : List Component} (hother : other.Perm components) :
      (other.map Component.name).Nodup := (hother.map Component.name).nodup_iff.2 hnodup
  have harrangedOf {other : List Component} (hother : other.Perm components) :
      Arranged [] other ↔ DependenciesFirst other :=
    arranged_iff_dependenciesFirst (hnodupOf hother) (hdeclared.of_perm hother)
  have harranged := arranged_of_arrange harrange
  refine ⟨⟨hperm, (harrangedOf hperm).1 harranged, fun other hother hfirst hne => ?_⟩,
    fun hfirst => ?_, ?_⟩
  · obtain ⟨common, a, b, s, o, hs, ho, hab⟩ :=
      least_of_arrange harrange hother ((harrangedOf hother).2 hfirst) hne
    exact ⟨common, a, b, s, o, hs, ho, idxOf_lt_of_sublist (hnodup.of_map _) hab⟩
  · have hsame := arrange_of_arranged ((harrangedOf (List.Perm.refl _)).2 hfirst)
    exact Except.ok.inj (harrange.symm.trans hsame)
  · exact order_eq_ok.2 ⟨hnodupOf hperm, hdeclared.of_perm hperm, arrange_of_arranged harranged⟩

/-- A registrar declared in front of all it refers to, a library among it. -/
def tangled : List Component :=
  [{ name := "registrar", args := [.component "registry"], libraries := [⟨"Math", "math"⟩] },
    { name := "resolver", args := [.deployer, .component "registry", .component "registry"] },
    { name := "registry" }, { name := "math" }]

/-- The order of `tangled`: the resolver need not wait for the library. -/
def untangled : List Component :=
  [{ name := "registry" },
    { name := "resolver", args := [.deployer, .component "registry", .component "registry"] },
    { name := "math" },
    { name := "registrar", args := [.component "registry"], libraries := [⟨"Math", "math"⟩] }]

theorem order_least_tangled : order tangled = .ok untangled ∧ IsLeastOrder tangled untangled ∧
    (DependenciesFirst tangled → untangled = tangled) ∧ order untangled = .ok untangled :=
  have h : order tangled = .ok untangled := by cbv
  ⟨h, order_least h⟩

end Rollout.Plan
