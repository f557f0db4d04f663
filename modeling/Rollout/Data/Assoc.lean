/-!
# Data/Assoc — finite maps as lists of entries

Every key has at most one entry. `insert` changes the entry of a key in place or adds one at the
end, so the entries stay in the order of their first insertion. The lemmas say what a look-up finds
after each operation.
-/

namespace Rollout

structure Assoc (K V : Type) where
  entries : List (K × V) := []
  deriving DecidableEq

namespace Assoc

variable {K V : Type} [DecidableEq K]

def empty : Assoc K V := {}

def lookup (key : K) : List (K × V) → Option V
  | [] => none
  | (k, v) :: rest => if k = key then some v else lookup key rest

def put (key : K) (value : V) : List (K × V) → List (K × V)
  | [] => [(key, value)]
  | (k, v) :: rest => if k = key then (k, value) :: rest else (k, v) :: put key value rest

def get? (m : Assoc K V) (key : K) : Option V :=
  lookup key m.entries

def insert (m : Assoc K V) (key : K) (value : V) : Assoc K V :=
  ⟨put key value m.entries⟩

def erase (m : Assoc K V) (key : K) : Assoc K V :=
  ⟨m.entries.filter fun entry => entry.1 ≠ key⟩

def contains (m : Assoc K V) (key : K) : Bool :=
  (m.get? key).isSome

def size (m : Assoc K V) : Nat :=
  m.entries.length

/-! ## Look-ups -/

@[simp] theorem get?_empty (key : K) : (empty : Assoc K V).get? key = none := rfl

theorem lookup_put (key other : K) (value : V) :
    ∀ entries : List (K × V),
      lookup other (put key value entries) = if key = other then some value else lookup other entries
  | [] => by simp [put, lookup]
  | (k, v) :: rest => by
      have ih := lookup_put key other value rest
      by_cases hk : k = key
      · subst hk
        by_cases ho : k = other <;> simp [put, lookup, ho]
      · by_cases ho : k = other
        · subst ho
          simp [put, lookup, hk, Ne.symm hk]
        · simp [put, lookup, hk, ho, ih]

theorem get?_insert (m : Assoc K V) (key other : K) (value : V) :
    (m.insert key value).get? other = if key = other then some value else m.get? other :=
  lookup_put key other value m.entries

theorem lookup_filter (key other : K) :
    ∀ entries : List (K × V),
      lookup other (entries.filter fun entry => entry.1 ≠ key) =
        if key = other then none else lookup other entries
  | [] => by simp [lookup]
  | (k, v) :: rest => by
      have ih := lookup_filter key other rest
      by_cases hk : k = key
      · subst hk
        by_cases ho : k = other
        · simp_all
        · simp_all [lookup]
      · by_cases ho : k = other
        · subst ho
          simp [lookup, hk, Ne.symm hk]
        · simp_all [lookup]

theorem get?_erase (m : Assoc K V) (key other : K) :
    (m.erase key).get? other = if key = other then none else m.get? other :=
  lookup_filter key other m.entries

end Assoc

end Rollout
