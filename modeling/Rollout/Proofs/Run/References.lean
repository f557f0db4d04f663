import Rollout.Run.Deployment

/-!
# Proofs/Run/References — names keep their meaning while a registry grows

A run looks names up in the resources it has so far and records new ones behind them.  A look-up
finds the first resource of a name, so what was found once is found in every longer registry:
arguments, libraries and whole creations can be read off the last registry of a run.
-/

namespace Rollout.Run

variable {ε α β : Type}

theorem bind_eq_ok {x : Except ε α} {f : α → Except ε β} {b : β} (h : (x >>= f) = .ok b) :
    ∃ a, x = .ok a ∧ f a = .ok b := by
  cases x with
  | error e => cases h
  | ok a => exact ⟨a, rfl, h⟩

theorem bind_eq_error {x : Except ε α} {f : α → Except ε β} {e : ε} (h : (x >>= f) = .error e) :
    x = .error e ∨ ∃ a, x = .ok a ∧ f a = .error e := by
  cases x with
  | error e' =>
    cases h
    exact .inl rfl
  | ok a => exact .inr ⟨a, rfl, h⟩

theorem map_eq_ok {x : Except ε α} {f : α → β} {b : β} (h : x.map f = .ok b) :
    ∃ a, x = .ok a ∧ f a = b := by
  cases x with
  | error e => cases h
  | ok a => exact ⟨a, rfl, Except.ok.inj h⟩

theorem map_eq_error {x : Except ε α} {f : α → β} {e : ε} (h : x.map f = .error e) :
    x = .error e := by
  cases x with
  | error e' => exact congrArg _ (Except.error.inj h)
  | ok a => cases h

theorem mapError_eq_ok {ε' : Type} {x : Except ε α} {f : ε → ε'} {a : α}
    (h : x.mapError f = .ok a) : x = .ok a := by
  cases x with
  | error e => cases h
  | ok a' => exact congrArg _ (Except.ok.inj h)

theorem mapError_eq_error {ε' : Type} {x : Except ε α} {f : ε → ε'} {e' : ε'}
    (h : x.mapError f = .error e') : ∃ e, x = .error e ∧ f e = e' := by
  cases x with
  | error e => exact ⟨e, rfl, Except.error.inj h⟩
  | ok a => cases h

/-! ## Names that were found -/

theorem address_mono {registry extended : Registry} {name : String} {a : Address}
    (h : registry.address name = .ok a) (hext : registry.resources <+: extended.resources) :
    extended.address name = .ok a := by
  obtain ⟨more, hmore⟩ := hext
  rw [Registry.address, Registry.find?] at h ⊢
  rw [← hmore, List.find?_append]
  cases hfind : registry.resources.find? (fun resource => resource.name == name) with
  | none => simp [hfind] at h
  | some resource => simpa [hfind] using h

theorem mapM_of_imp {f g : α → Except ε β} {as : List α} {bs : List β}
    (hfg : ∀ a b, f a = .ok b → g a = .ok b) (h : as.mapM f = .ok bs) : as.mapM g = .ok bs := by
  induction as generalizing bs with
  | nil => exact h
  | cons a as ih =>
    rw [List.mapM_cons] at h ⊢
    obtain ⟨b, ha, h⟩ := bind_eq_ok h
    obtain ⟨rest, has, h⟩ := bind_eq_ok h
    rw [hfg a b ha, ih has]
    exact h

theorem map_ok_of_imp {γ : Type} {f g : α → Except ε β} {k : γ → β} {as : List α} {cs : List γ}
    (h : cs.map (fun c => .ok (k c)) = as.map f) (hfg : ∀ a b, f a = .ok b → g a = .ok b) :
    cs.map (fun c => .ok (k c)) = as.map g := by
  rw [h]
  refine List.map_congr_left fun a ha => ?_
  have hmem : f a ∈ cs.map fun c => .ok (k c) := by
    rw [h]
    exact List.mem_map_of_mem ha
  obtain ⟨c, -, hc⟩ := List.mem_map.1 hmem
  rw [← hc, hfg a (k c) hc.symm]

theorem creationOf_eq_ok {registry : Registry} {deployer : Address} {c : Component}
    {creation : Creation} (h : creationOf registry deployer c = .ok creation) :
    ∃ args libraries, resolveArguments registry deployer c.args = .ok args ∧
      resolveLibraries registry c.libraries = .ok libraries ∧
      creation = ⟨c.name, c.contractName, args, libraries⟩ := by
  obtain ⟨args, hargs, h⟩ := bind_eq_ok h
  obtain ⟨libraries, hlibraries, h⟩ := bind_eq_ok h
  exact ⟨args, libraries, hargs, hlibraries, (Except.ok.inj h).symm⟩

theorem resolveArguments_mono {registry extended : Registry} {deployer : Address}
    {args : List Argument} {values : List AbiValue}
    (h : resolveArguments registry deployer args = .ok values)
    (hext : registry.resources <+: extended.resources) :
    resolveArguments extended deployer args = .ok values := by
  refine mapM_of_imp (fun arg value hvalue => ?_) h
  cases arg with
  | component name =>
    obtain ⟨a, hname, rfl⟩ := map_eq_ok hvalue
    rw [resolveArgument, address_mono hname hext]
    rfl
  | _ => exact hvalue

theorem resolveLibraries_mono {registry extended : Registry} {libraries : List LibraryLink}
    {values : List (String × Address)} (h : resolveLibraries registry libraries = .ok values)
    (hext : registry.resources <+: extended.resources) :
    resolveLibraries extended libraries = .ok values := by
  refine mapM_of_imp (fun link value hvalue => ?_) h
  obtain ⟨a, hname, rfl⟩ := map_eq_ok hvalue
  rw [address_mono hname hext]
  rfl

/-- A creation that could be resolved is the same in every longer registry. -/
theorem creationOf_mono {registry extended : Registry} {deployer : Address} {c : Component}
    {creation : Creation} (h : creationOf registry deployer c = .ok creation)
    (hext : registry.resources <+: extended.resources) :
    creationOf extended deployer c = .ok creation := by
  obtain ⟨args, libraries, hargs, hlibraries, rfl⟩ := creationOf_eq_ok h
  rw [creationOf, resolveArguments_mono hargs hext, resolveLibraries_mono hlibraries hext]
  rfl

/-! ## Names that are missing -/

theorem find?_ne_none_iff {registry : Registry} {name : String} :
    registry.find? name ≠ none ↔ name ∈ registry.names := by
  simp [Registry.find?, Registry.names]

theorem contains_eq_true_iff {registry : Registry} {name : String} :
    registry.contains name = true ↔ name ∈ registry.names := by
  simp [Registry.contains, Registry.names]

theorem address_eq_error {registry : Registry} {name : String} {e : DeployError}
    (h : registry.address name = .error e) :
    registry.find? name = none ∧ e = .unresolvedDependency name := by
  rw [Registry.address] at h
  split at h
  · cases h
  · next hnone =>
    cases h
    exact ⟨hnone, rfl⟩

theorem mapM_eq_error {f : α → Except ε β} {as : List α} {e : ε} (h : as.mapM f = .error e) :
    ∃ a ∈ as, f a = .error e := by
  induction as with
  | nil => cases h
  | cons a as ih =>
    rw [List.mapM_cons] at h
    rcases bind_eq_error h with ha | ⟨b, -, h⟩
    · exact ⟨a, List.mem_cons_self .., ha⟩
    · rcases bind_eq_error h with has | ⟨rest, -, h⟩
      · obtain ⟨a', hmem, ha'⟩ := ih has
        exact ⟨a', List.mem_cons_of_mem _ hmem, ha'⟩
      · cases h

/-- A creation that cannot be resolved refers to a name that is missing. -/
theorem creationOf_eq_error {registry : Registry} {deployer : Address} {c : Component}
    {e : DeployError} (h : creationOf registry deployer c = .error e) :
    ∃ name ∈ c.references, registry.find? name = none ∧ e = .unresolvedDependency name := by
  rcases bind_eq_error h with hargs | ⟨args, -, h⟩
  · obtain ⟨arg, hmem, harg⟩ := mapM_eq_error hargs
    cases arg with
    | component name =>
      refine ⟨name, List.mem_append_left _ ?_, address_eq_error (map_eq_error harg)⟩
      exact List.mem_filterMap.2 ⟨_, hmem, rfl⟩
    | _ => cases harg
  · rcases bind_eq_error h with hlibraries | ⟨libraries, -, h⟩
    · obtain ⟨link, hmem, hlink⟩ := mapM_eq_error hlibraries
      refine ⟨link.component, List.mem_append_right _ ?_, address_eq_error (map_eq_error hlink)⟩
      exact List.mem_map.2 ⟨link, hmem, rfl⟩
    · cases h

end Rollout.Run
