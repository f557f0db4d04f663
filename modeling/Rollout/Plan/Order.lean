import Rollout.Component
import Rollout.DeployError

/-!
# Plan/Order — components sorted by their dependencies

`Plan.order` puts every component behind the components it refers to. Whenever several could come
next, the one declared first does, so a list that is in order already stays as it is. Names have to
be declared once, and every dependency has to be declared.
-/

namespace Rollout.Plan

/-- The first name that occurred before. -/
def firstRepeated? (seen : List String) : List Component → Option String
  | [] => none
  | c :: rest => if c.name ∈ seen then some c.name else firstRepeated? (c.name :: seen) rest

/-- The first component with a dependency outside `names`, and the first such dependency. -/
def firstUnknown? (names : List String) : List Component → Option (String × String)
  | [] => none
  | c :: rest =>
    match c.dependencies.find? (· ∉ names) with
    | some dependency => some (c.name, dependency)
    | none => firstUnknown? names rest

/-- Whether everything that a component refers to has been placed. -/
def isReady (placed : List String) (c : Component) : Bool :=
  c.dependencies.all (· ∈ placed)

/-- The first ready component, and the others in their order. -/
def takeReady (placed : List String) : List Component → Option (Component × List Component)
  | [] => none
  | c :: rest =>
    if isReady placed c then some (c, rest)
    else
      match takeReady placed rest with
      | some (next, others) => some (next, c :: others)
      | none => none

theorem length_of_takeReady {placed : List String} {next : Component} :
    ∀ {pending others : List Component},
      takeReady placed pending = some (next, others) → others.length + 1 = pending.length
  | [], _, h => by simp [takeReady] at h
  | c :: rest, others, h => by
      rw [takeReady] at h
      split at h
      · simp_all
      · split at h
        · next hrest =>
          have := length_of_takeReady hrest
          simp_all only [Option.some.injEq, Prod.mk.injEq, List.length_cons]
          obtain ⟨_, rfl⟩ := h
          simp only [List.length_cons]
          omega
        · simp at h

/-- Places one ready component after the other. If none is ready, those left are the fault. -/
def arrange (placed : List String) (pending : List Component) :
    Except (List Component) (List Component) :=
  match _found : takeReady placed pending with
  | some (next, others) =>
    match arrange (next.name :: placed) others with
    | .ok order => .ok (next :: order)
    | .error stuck => .error stuck
  | none => if pending = [] then .ok [] else .error pending
  termination_by pending.length
  decreasing_by
    have := length_of_takeReady _found
    omega

/-- The components in the order of their deployment. -/
def order (components : List Component) : Except DeployError (List Component) :=
  match firstRepeated? [] components with
  | some name => .error (.invalidPlan (.declaredTwice name))
  | none =>
    match firstUnknown? (components.map Component.name) components with
    | some (component, dependency) => .error (.unknownDependency component dependency)
    | none =>
      match arrange [] components with
      | .ok sorted => .ok sorted
      | .error stuck => .error (.dependencyCycle (stuck.map Component.name))

end Rollout.Plan
