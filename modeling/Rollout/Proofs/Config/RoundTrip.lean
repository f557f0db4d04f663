import Rollout.Config.File
import Rollout.Config.Preset
import Rollout.Proofs.Data.Hex
import Rollout.Proofs.Toml.Records

/-!
# Proofs/Config/RoundTrip — configurations are read back as they were written

A configuration is written as a tidy document (`Config.tidy_toValue`), so reading its text gives what
the document is read back as, and from that the reader of every part makes the part again: arguments
and steps of all kinds, components whatever they leave out, and the tables of the network and of the
waits, whose numbers fit because they were written (`Config.ofValue?_reproduced`).

Two parts are texts of their own.  The text of a principal is read as the principal, unless it is a
component without a name, and as such nothing is read (`Principal.parse_toText`,
`Principal.named_of_ofValue?`).  Of the address of the node it is assumed that its normal form is read
as itself.  Then everything that was loaded or preset comes back
(`Config.ofToml?_toToml?_of_obtained`).
-/

namespace Rollout

open Toml

variable {room : Nat}

/-! ## Records of texts -/

/-- Names of fields that are told apart and need no quotes. -/
def FieldNames (names : List String) : Prop :=
  names.Nodup ∧ ∀ name ∈ names, IsBare name

instance (names : List String) : Decidable (FieldNames names) :=
  inferInstanceAs (Decidable (_ ∧ _))

/-- A record whose names need no quotes is as tidy as its fields. -/
theorem tidy_record {names : List String} (hnames : FieldNames names)
    {fields : List (String × Value)} (hkeys : (fields.map Prod.fst).Sublist names)
    (h : ∀ field ∈ fields, Tidy room field.2) : Tidy (room + 1) (.object fields) :=
  .table (hkeys.nodup hnames.1)
    (fun _ hfield => hnames.2 _ (hkeys.subset (List.mem_map_of_mem hfield))) h

/-- A record whose fields are texts. -/
inductive TextRecord : Value → Prop where
  | mk {names : List String} (hnames : FieldNames names) (fields : List (String × String))
      (hfields : fields.map Prod.fst = names) :
      TextRecord (.object (fields.map fun field => (field.1, .string field.2)))

theorem TextRecord.tidy {v : Value} (h : TextRecord v) : Tidy (room + 1) v := by
  obtain ⟨hnames, fields, rfl⟩ := h
  refine tidy_record hnames ?_ ?_
  · rw [List.map_map]
    exact .refl _
  · rintro _ hmem
    obtain ⟨field, -, rfl⟩ := List.mem_map.1 hmem
    exact .plain (.string _)

/-- Texts come back as they are, and all of them stand in lines. -/
theorem TextRecord.reproduced {v : Value} (h : TextRecord v) : reproduced v = v := by
  obtain ⟨-, fields, rfl⟩ := h
  have hfields : reproducedFields (fields.map fun field => (field.1, Value.string field.2)) =
      fields.map fun field => (field.1, .string field.2) := by
    rw [reproducedFields_eq, List.map_map]
    refine List.map_congr_left fun field _ => ?_
    rw [Function.comp_apply, Toml.reproduced]
  rw [Toml.reproduced, hfields, arranged, List.filter_map, List.filter_map]
  simp [Function.comp_def, isHeaded]

/-! ## Arguments and libraries -/

theorem Argument.textRecord_toValue (a : Argument) : TextRecord a.toValue := by
  have hnames : FieldNames ["kind", "value"] := by decide
  cases a with
  | uint value =>
    exact .mk hnames [("kind", "uint"), ("value", value.toHex)] rfl
  | address value =>
    exact .mk hnames [("kind", "address"), ("value", value.toHex)] rfl
  | node path => exact .mk hnames [("kind", "node"), ("value", path)] rfl
  | deployer => exact .mk (by decide : FieldNames ["kind"]) [("kind", "deployer")] rfl
  | component name => exact .mk hnames [("kind", "component"), ("value", name)] rfl

/-- **Arguments of all kinds are read back.** -/
theorem Argument.ofValue?_toValue (a : Argument) : ofValue? .toml a.toValue = some a := by
  cases a with
  | uint value =>
    simp [ofValue?, toValue, Value.named?, Value.field?, Value.valuesOf, Value.name?, ofKind?,
      Value.required?, Value.uint256?, Uint256.ofNumeral?_toHex]
  | address value =>
    simp [ofValue?, toValue, Value.named?, Value.field?, Value.valuesOf, Value.name?, ofKind?,
      Value.required?, Value.fixedBytes?, FixedBytes.ofText?_toHex]
  | node path => rfl
  | deployer => rfl
  | component name => rfl

theorem LibraryLink.textRecord_toValue (l : LibraryLink) : TextRecord l.toValue :=
  .mk (by decide : FieldNames ["library", "component"])
    [("library", l.library), ("component", l.component)] rfl

theorem LibraryLink.ofValue?_toValue (l : LibraryLink) : ofValue? .toml l.toValue = some l := rfl

/-! ## Principals and wiring steps -/

namespace Principal

/-- Whether a principal has a text: a component without a name has none. -/
def Named (p : Principal) : Prop :=
  p ≠ .component ""

/-- No other text begins like that of the signing account. -/
theorem ne_deployer {c : Char} (h : c ≠ 'd') (cs : List Char) :
    String.ofList (c :: cs) ≠ "deployer" := by
  intro hsame
  have hlists := congrArg String.toList hsame
  rw [String.toList_ofList] at hlists
  exact h (List.cons.inj hlists).1

/-- **A principal is read back**, if it has a text. -/
theorem parse_toText {p : Principal} (h : p.Named) : parse p.toText = .ok p := by
  cases p with
  | deployer => rfl
  | component name =>
    cases hname : name.toList with
    | nil => exact absurd (congrArg component (String.toList_inj.1 hname)) h
    | cons c cs =>
      have hsame : String.ofList (c :: cs) = name := by rw [← hname, String.ofList_toList]
      rw [toText, hname, parse, if_neg (ne_deployer (by decide) _), String.toList_ofList]
      exact congrArg (fun name => (Except.ok (component name) : Except Fault Principal)) hsame
  | address a =>
    obtain ⟨cs, htext, -⟩ := Address.digits_checksummed a
    have hparse := Address.parse_checksummed a
    rw [htext] at hparse
    rw [toText, htext, parse, if_neg (ne_deployer (by decide) _), String.toList_ofList, hparse]
    rfl

theorem ofValue?_toValue {p : Principal} (h : p.Named) : ofValue? p.toValue = some p := by
  rw [ofValue?, toValue, Value.string?, Option.bind_some, parse_toText h]
  rfl

/-- What is read as a component has a name. -/
theorem named_of_ofValue? {v : Value} {p : Principal} (h : ofValue? v = some p) : p.Named := by
  rintro rfl
  obtain ⟨text, -, htext⟩ := Option.bind_eq_some_iff.1 h
  have hparse : parse text = .ok (.component "") := by
    cases hparse : parse text with
    | ok p =>
      rw [hparse] at htext
      exact congrArg _ (Option.some.inj htext)
    | error fault =>
      rw [hparse] at htext
      cases htext
  rw [parse] at hparse
  split at hparse
  · cases hparse
  · split at hparse
    · next c name _ =>
      have hname := congrArg String.toList (component.inj (Except.ok.inj hparse))
      rw [String.toList_ofList] at hname
      cases hname
    · split at hparse <;> cases hparse
    · cases hparse

theorem named_of_required? {entry : Option Value} {p : Principal}
    (h : Value.required? ofValue? entry = some p) : p.Named := by
  obtain ⟨v, -, hv⟩ := Option.bind_eq_some_iff.1 h
  exact named_of_ofValue? hv

end Principal

namespace WiringStep

theorem textRecord_toValue (step : WiringStep) : TextRecord step.toValue := by
  cases step with
  | assignSubnode parent label owner =>
    exact .mk (by decide : FieldNames ["step", "parent", "label", "owner"])
      [("step", "assign_subnode"), ("parent", parent), ("label", label), ("owner", owner.toText)] rfl
  | awaitPropagation path owner =>
    exact .mk (by decide : FieldNames ["step", "path", "owner"])
      [("step", "await_propagation"), ("path", path), ("owner", owner.toText)] rfl
  | bindResolver path resolver =>
    exact .mk (by decide : FieldNames ["step", "path", "resolver"])
      [("step", "bind_resolver"), ("path", path), ("resolver", resolver.toText)] rfl
  | bindInterface resolver path interfaceId implementer =>
    exact .mk
      (by decide : FieldNames ["step", "resolver", "path", "interface_id", "implementer"])
      [("step", "bind_interface"), ("resolver", resolver.toText), ("path", path),
        ("interface_id", interfaceId.toHex), ("implementer", implementer.toText)] rfl
  | authorizeController resource controller =>
    exact .mk (by decide : FieldNames ["step", "resource", "controller"])
      [("step", "authorize_controller"), ("resource", resource.toText),
        ("controller", controller.toText)] rfl

/-- **Steps of all kinds are read back**, if their principals are. -/
theorem ofValue?_toValue {step : WiringStep} (h : ∀ p ∈ step.principals, p.Named) :
    ofValue? .toml step.toValue = some step := by
  have hread : ∀ p ∈ step.principals, Principal.ofValue? p.toValue = some p :=
    fun p hp => Principal.ofValue?_toValue (h p hp)
  cases step <;>
    simp only [principals, List.forall_mem_cons, List.not_mem_nil, false_implies, implies_true,
      and_true] at hread <;>
    simp [ofValue?, toValue, Value.field?, Value.valuesOf, tag?, fieldNames?, Value.named?,
      ofFields?, Value.required?, Value.default?, Value.string?, Value.fixedBytes?, hread,
      FixedBytes.ofText?_toHex]

/-- The principals of a step that is read are read. -/
theorem named_of_ofFields? {d : Dialect} {tag : String} {entries : List (Option Value)}
    {step : WiringStep} (h : ofFields? d tag entries = some step) :
    ∀ p ∈ step.principals, p.Named := by
  rw [ofFields?.eq_def] at h
  split at h <;> try split_ifs at h
  all_goals simp only [Option.bind_eq_bind, Option.bind_eq_some_iff, Option.pure_def,
    Option.some.injEq, reduceCtorEq] at h
  -- one case for each tag, in the order of their numbers of fields
  · obtain ⟨parent, -, label, -, owner, howner, rfl⟩ := h
    simpa [principals] using Principal.named_of_required? howner
  · obtain ⟨path, -, owner, howner, rfl⟩ := h
    simpa [principals] using Principal.named_of_required? howner
  · obtain ⟨path, -, resolver, hresolver, rfl⟩ := h
    simpa [principals] using Principal.named_of_required? hresolver
  · obtain ⟨resource, hresource, controller, hcontroller, rfl⟩ := h
    simpa [principals] using
      ⟨Principal.named_of_required? hresource, Principal.named_of_required? hcontroller⟩
  · obtain ⟨resolver, hresolver, path, -, interfaceId, -, implementer, himplementer, rfl⟩ := h
    simpa [principals] using
      ⟨Principal.named_of_required? hresolver, Principal.named_of_required? himplementer⟩

theorem named_of_ofValue? {d : Dialect} {v : Value} {step : WiringStep}
    (h : ofValue? d v = some step) : ∀ p ∈ step.principals, p.Named := by
  rw [ofValue?.eq_def] at h
  split at h
  · split at h
    · simp only [Option.bind_eq_bind, Option.bind_eq_some_iff] at h
      obtain ⟨tag, -, names, -, entries, -, hentries⟩ := h
      exact named_of_ofFields? hentries
    · cases h
  · simp only [Option.bind_eq_bind, Option.bind_eq_some_iff] at h
    obtain ⟨tag, -, names, -, entries, -, hentries⟩ := h
    exact named_of_ofFields? hentries
  · cases h

end WiringStep

/-! ## Components -/

section Fields

variable {α : Type} {key : String} {write : α → Value} {read : Value → Option α}

theorem keys_optionalField (o : Option α) :
    ((Component.optionalField key write o).map Prod.fst).Sublist [key] := by
  cases o with
  | none => exact List.nil_sublist _
  | some a => exact .refl _

theorem keys_listField (as : List α) :
    ((Component.listField key write as).map Prod.fst).Sublist [key] := by
  cases as with
  | nil => exact List.nil_sublist _
  | cons a as => exact .refl _

theorem tidy_optionalField (h : ∀ a, Tidy room (write a)) (o : Option α) :
    ∀ field ∈ Component.optionalField key write o, Tidy room field.2 := by
  cases o with
  | none => nofun
  | some a => simpa [Component.optionalField] using h a

theorem tidy_listField (h : ∀ a, Tidy room (write a)) (as : List α) :
    ∀ field ∈ Component.listField key write as, Tidy room field.2 := by
  cases as with
  | nil => nofun
  | cons a as =>
    have hlist : Tidy room (.array ((a :: as).map write)) := by
      refine .list ?_
      simpa using ⟨h a, fun a _ => h a⟩
    simpa [Component.listField] using hlist

/-- The entry of a list that is left out when it is empty. -/
def listEntry (write : α → Value) : List α → Option Value
  | [] => none
  | as => some (.array (as.map write))

/-- A list that is left out is read back as the empty one. -/
theorem default?_listEntry (read : Value → Option α) (as : List α)
    (h : ∀ a ∈ as, read (reproduced (write a)) = some a) :
    Value.default? (Value.list? read) [] ((listEntry write as).map reproduced) = some as := by
  cases as with
  | nil => rfl
  | cons a as => exact list?_reproduced read _ h

theorem default?_string (o : Option String) :
    Value.default? (Value.optional? Value.string?) none ((o.map Value.string).map reproduced) =
      some o := by
  cases o with
  | none => rfl
  | some s => simp [Value.default?, reproduced, Value.optional?, Value.string?]

end Fields

namespace Component

theorem tidy_toValue (c : Component) : Tidy (room + 2) c.toValue := by
  have hargs : ∀ a : Argument, Tidy (room + 1) a.toValue := fun a => a.textRecord_toValue.tidy
  have hlibraries : ∀ l : LibraryLink, Tidy (room + 1) l.toValue :=
    fun l => l.textRecord_toValue.tidy
  have hnames : FieldNames ["name", "contract", "args", "libraries"] := by decide
  refine tidy_record hnames ?_ ?_
  · simp only [List.map_cons, List.map_append]
    exact .cons_cons _ ((keys_optionalField _).append
      ((keys_listField _).append (keys_listField _)))
  · simp only [List.forall_mem_cons, List.forall_mem_append]
    exact ⟨.plain (.string _), tidy_optionalField (fun s => .plain (.string s)) _,
      tidy_listField hargs _, tidy_listField hlibraries _⟩

theorem record?_toValue (c : Component) :
    Value.record? .toml ["name", "contract", "args", "libraries"] (reproduced c.toValue) =
      some ([some (.string c.name), c.contract.map .string, listEntry Argument.toValue c.args,
        listEntry LibraryLink.toValue c.libraries].map (Option.map reproduced)) := by
  rw [toValue, record?_reproduced]
  obtain ⟨name, contract, args, libraries⟩ := c
  cases contract <;> cases args <;> cases libraries <;> rfl

/-- **Components are read back.** -/
theorem ofValue?_reproduced (c : Component) :
    ofValue? .toml (reproduced c.toValue) = some c := by
  have hargs := default?_listEntry (Argument.ofValue? .toml) c.args
    fun a _ => a.textRecord_toValue.reproduced.symm ▸ a.ofValue?_toValue
  have hlibraries := default?_listEntry (LibraryLink.ofValue? .toml) c.libraries
    fun l _ => l.textRecord_toValue.reproduced.symm ▸ l.ofValue?_toValue
  rw [ofValue?, record?_toValue]
  simp [Value.required?, reproduced, Value.string?, default?_string, hargs, hlibraries,
    -Option.map_map]

end Component

/-! ## Networks and policies -/

/-- A number of an optional field is read back if it fits. -/
theorem default?_word {o : Option Nat} (h : ∀ n ∈ o, n < Value.signedBound) :
    Value.default? (Value.optional? Value.word?) none ((o.map Value.unsigned).map reproduced) =
      some o := by
  cases o with
  | none => rfl
  | some n =>
    have hword := word?_reproduced (h n rfl)
    rw [reproduced] at hword
    rw [Option.map_some, Option.map_some, default?_some, reproduced, Value.optional?, hword,
      Option.map_some]
    rintro ⟨⟩

namespace Network

theorem tidy_toValue (n : Network) : Tidy (room + 1) n.toValue := by
  refine tidy_record (by decide : FieldNames fieldNames) ?_ ?_
  · simp only [List.map_cons, List.map_append]
    exact .cons_cons _ ((keys_optionalField _).append (.refl _))
  · simp only [List.forall_mem_cons, List.forall_mem_append]
    exact ⟨.plain (.string _), tidy_optionalField (fun n => .plain (.number n)) _,
      .plain (.string _), nofun⟩

theorem record?_toValue (n : Network) :
    Value.record? .toml fieldNames (reproduced n.toValue) =
      some ([some (.string n.url.text), n.chainId.map .unsigned, some (.string n.deployer.toHex)].map
        (Option.map reproduced)) := by
  rw [toValue, record?_reproduced]
  obtain ⟨url, chainId, deployer⟩ := n
  cases chainId <;> rfl

/-- **A network is read back** if its address is. -/
theorem ofValue?_reproduced {n : Network} (hurl : Url.parse n.url.text = some n.url)
    (h : HasPairs n.toValue) : ofValue? .toml (reproduced n.toValue) = some n := by
  have hchain : ∀ id ∈ n.chainId, id < Value.signedBound := by
    intro id hid
    refine h.lt "chain_id" (List.mem_cons_of_mem _ (List.mem_append_left _ ?_))
    rw [hid]
    exact List.mem_cons_self ..
  rw [ofValue?, record?_toValue]
  simp [Value.required?, default?_some, reproduced, Value.string?, hurl, default?_word hchain,
    Value.fixedBytes?, FixedBytes.ofText?_toHex, -Option.map_map]

end Network

namespace ConfirmationPolicy

theorem tidy_toValue (p : ConfirmationPolicy) : Tidy (room + 1) p.toValue :=
  tidy_record (by decide : FieldNames fieldNames) (.refl _) (by
    simpa using ⟨.plain (.number _), .plain (.number _)⟩)

theorem ofValue?_reproduced {p : ConfirmationPolicy} (h : HasPairs p.toValue) :
    ofValue? .toml (reproduced p.toValue) = some p := by
  have htimeout : p.timeoutSecs < Value.signedBound := h.lt "timeout_secs" (by simp)
  have hinterval : p.pollIntervalMs < Value.signedBound := h.lt "poll_interval_ms" (by simp)
  have hrecord : Value.record? .toml fieldNames (reproduced p.toValue) =
      some ([some (.unsigned p.timeoutSecs), some (.unsigned p.pollIntervalMs)].map
        (Option.map reproduced)) := by
    rw [toValue, record?_reproduced]
    rfl
  rw [ofValue?, hrecord]
  simp [default?_some, word?_reproduced htimeout, word?_reproduced hinterval]

end ConfirmationPolicy

namespace PropagationPolicy

theorem tidy_toValue (p : PropagationPolicy) : Tidy (room + 1) p.toValue :=
  tidy_record (by decide : FieldNames fieldNames) (.refl _) (by
    simpa using ⟨.plain (.string _), .plain (.number _), .plain (.number _), .plain (.number _)⟩)

theorem ofValue?_reproduced {p : PropagationPolicy} (h : HasPairs p.toValue) :
    ofValue? .toml (reproduced p.toValue) = some p := by
  have hinterval : p.pollIntervalMs < Value.signedBound := h.lt "poll_interval_ms" (by simp)
  have htimeout : p.timeoutSecs < Value.signedBound := h.lt "timeout_secs" (by simp)
  have hdelay : p.fixedDelayMs < Value.signedBound := h.lt "fixed_delay_ms" (by simp)
  have hrecord : Value.record? .toml fieldNames (reproduced p.toValue) =
      some ([some (.string p.mode.toText), some (.unsigned p.pollIntervalMs),
        some (.unsigned p.timeoutSecs), some (.unsigned p.fixedDelayMs)].map
          (Option.map reproduced)) := by
    rw [toValue, record?_reproduced]
    rfl
  have hmode : PropagationMode.ofValue? .toml (.string p.mode.toText) = some p.mode := by
    cases p.mode <;> rfl
  rw [ofValue?, hrecord]
  simp [default?_some, reproduced_string, hmode, word?_reproduced hinterval,
    word?_reproduced htimeout, word?_reproduced hdelay]

end PropagationPolicy

/-! ## Configurations -/

namespace Config

/-- The document of a configuration is tidy, and its tables are nested no deeper than three. -/
theorem tidy_toValue (c : Config) : Tidy (room + 3) c.toValue := by
  refine tidy_record (by decide : FieldNames fieldNames) ?_ ?_
  · simp only [List.map_cons, List.map_append]
    exact .cons_cons _ (.cons_cons _ ((keys_optionalField _).append (.refl _)))
  · simp only [List.forall_mem_cons, List.forall_mem_append]
    refine ⟨⟨.plain (.string _), .plain (.bool _), nofun⟩,
      tidy_optionalField (fun s => .plain (.string s)) _, c.network.tidy_toValue,
      c.confirmation.tidy_toValue, c.propagation.tidy_toValue, .list ?_, .list ?_, nofun⟩
    · intro v hv
      obtain ⟨component, -, rfl⟩ := List.mem_map.1 hv
      exact component.tidy_toValue
    · intro v hv
      obtain ⟨step, -, rfl⟩ := List.mem_map.1 hv
      exact step.textRecord_toValue.tidy

theorem record?_toValue (c : Config) :
    Value.record? .toml fieldNames (reproduced c.toValue) =
      some ([some (.string c.artifactsDir), some (.bool c.precheck), c.registry.map .string,
        some c.network.toValue, some c.confirmation.toValue, some c.propagation.toValue,
        some (.array (c.components.map Component.toValue)),
        some (.array (c.wiring.map WiringStep.toValue))].map (Option.map reproduced)) := by
  rw [toValue, record?_reproduced]
  obtain ⟨artifactsDir, precheck, registry, network, confirmation, propagation, components,
    wiring⟩ := c
  cases registry <;> rfl

/-- The tables of a configuration that can be written have pairs. -/
theorem hasPairs_of_toToml? {c : Config} {text : String} (h : c.toToml? = some text) :
    HasPairs c.network.toValue ∧ HasPairs c.confirmation.toValue ∧
      HasPairs c.propagation.toValue := by
  refine ⟨hasPairs_of_write h "network" ?_,
    hasPairs_of_write h "confirmation" ?_, hasPairs_of_write h "propagation" ?_⟩
  · exact List.mem_append_right _ (List.mem_append_right _ (List.mem_cons_self ..))
  · exact List.mem_append_right _ (List.mem_append_right _
      (List.mem_cons_of_mem _ (List.mem_cons_self ..)))
  · exact List.mem_append_right _ (List.mem_append_right _
      (List.mem_cons_of_mem _ (List.mem_cons_of_mem _ (List.mem_cons_self ..))))

/-- Whether the parts of a configuration that have a text of their own are read back from it. -/
structure Legible (c : Config) : Prop where
  url : Url.parse c.network.url.text = some c.network.url
  principals : ∀ step ∈ c.wiring, ∀ p ∈ step.principals, p.Named

/-- **A legible configuration is read back from its document.** -/
theorem ofValue?_reproduced {c : Config} {text : String} (hlegible : c.Legible)
    (h : c.toToml? = some text) : ofValue? .toml (reproduced c.toValue) = some c := by
  obtain ⟨hnetwork, hconfirmation, hpropagation⟩ := hasPairs_of_toToml? h
  replace hnetwork := Network.ofValue?_reproduced hlegible.url hnetwork
  replace hconfirmation := ConfirmationPolicy.ofValue?_reproduced hconfirmation
  replace hpropagation := PropagationPolicy.ofValue?_reproduced hpropagation
  have hcomponents := list?_reproduced (Component.ofValue? .toml) c.components fun component _ =>
    component.ofValue?_reproduced
  have hwiring := list?_reproduced (WiringStep.ofValue? .toml) c.wiring
    fun step hstep => step.textRecord_toValue.reproduced.symm ▸
      WiringStep.ofValue?_toValue (hlegible.principals step hstep)
  rw [ofValue?, record?_toValue]
  simp [Value.required?, default?_some, default?_string, reproduced_string,
    reproduced_bool, Value.string?, Value.bool?, hnetwork, hconfirmation, hpropagation,
    hcomponents, hwiring, -Option.map_map, -List.map_map]

/-- **A legible configuration is read back from its text.** -/
theorem Legible.ofToml?_toToml? {c : Config} {text : String} (hlegible : c.Legible)
    (h : c.toToml? = some text) : ofToml? text = some c := by
  have htidy : Tidy (78 + 3) c.toValue := c.tidy_toValue
  have hparse : parse text = some (reproduced c.toValue) := parse_write htidy h
  rw [ofToml?, hparse, Option.bind_some, ofValue?_reproduced hlegible h]

/-! ## Configurations that are read or preset -/

/-- **The principals of a configuration that is read are read.** -/
theorem principals_of_ofValue? {d : Dialect} {v : Value} {c : Config} (h : ofValue? d v = some c) :
    ∀ step ∈ c.wiring, ∀ p ∈ step.principals, p.Named := by
  rw [ofValue?] at h
  split at h
  · next wiring _ =>
    simp only [Option.bind_eq_bind, Option.bind_eq_some_iff, Option.pure_def,
      Option.some.injEq] at h
    obtain ⟨artifactsDir, -, precheck, -, registry, -, network, -, confirmation, -, propagation, -,
      components, -, steps, hsteps, rfl⟩ := h
    intro step hstep
    cases wiring with
    | none =>
      obtain rfl := Option.some.inj hsteps
      cases hstep
    | some v =>
      rw [default?_some] at hsteps
      obtain ⟨v, hv⟩ := exists_of_list? hsteps step hstep
      exact WiringStep.named_of_ofValue? hv
  · cases h

/-- The principals of a preset have names. -/
theorem principals_preset (domain : String) (pricing : Pricing) :
    ∀ step ∈ (preset domain pricing).wiring, ∀ p ∈ step.principals, p.Named := by
  simp [preset, Preset.wiring, WiringStep.principals, Principal.Named]

/-- A configuration that was loaded from a file or is the preset of a domain. -/
inductive Obtained : Config → Prop where
  | loaded {tree : FileTree} {path : String} {c : Config} (h : load tree path = .ok c) : Obtained c
  | preset (domain : String) (pricing : Pricing) : Obtained (preset domain pricing)

theorem Obtained.principals {c : Config} (h : c.Obtained) :
    ∀ step ∈ c.wiring, ∀ p ∈ step.principals, p.Named := by
  cases h with
  | @loaded tree path c h =>
    rw [load] at h
    split at h
    · cases h
    · split at h
      · cases h
      · split at h
        · next htoml =>
          cases h
          obtain ⟨v, -, hv⟩ := Option.bind_eq_some_iff.1 htoml
          exact principals_of_ofValue? hv
        · cases h
  | preset domain pricing => exact principals_preset domain pricing

/-- **Writing a configuration and reading it back loses nothing**, whether it was loaded or preset, as
long as the address of its node is read back as itself. -/
theorem ofToml?_toToml?_of_obtained {c : Config} {text : String} (hc : c.Obtained)
    (hurl : Url.parse c.network.url.text = some c.network.url) (h : c.toToml? = some text) :
    ofToml? text = some c :=
  Legible.ofToml?_toToml? ⟨hurl, hc.principals⟩ h

theorem ofToml?_toToml?_preset : ∃ text, (preset "eth" .default).toToml? = some text ∧
    ofToml? text = some (preset "eth" .default) := by
  have hwritten : (preset "eth" .default).toToml?.isSome = true := by decide +kernel
  obtain ⟨text, htext⟩ := Option.isSome_iff_exists.1 hwritten
  exact ⟨text, htext,
    ofToml?_toToml?_of_obtained (.preset "eth" .default) (by decide +kernel) htext⟩

end Config

end Rollout
