import Mathlib.Data.List.Perm.Basic
import Rollout.Proofs.Data.Value
import Rollout.Proofs.Toml.Tables

/-!
# Proofs/Toml/Records — records are read from what a document is read back as

A record is read by the names of its fields, so it makes no difference to it in which order they come
back (`record?_reproduced`), and a list is read if each of its items is (`list?_reproduced`).  The
integers come back with a sign, which is no loss, since only those that fit can be written
(`HasPairs.lt`, `word?_reproduced`).
-/

namespace Rollout.Toml

variable {fields others : List (String × Value)}

/-! ## Fields -/

/-- A field is found wherever it stands. -/
theorem field?_perm (h : fields.Perm others) (name : String) :
    Value.field? fields name = Value.field? others name := by
  have hvalues : (Value.valuesOf name fields).Perm (Value.valuesOf name others) := by
    rw [Value.valuesOf_eq, Value.valuesOf_eq]
    exact (h.filter _).map _
  rw [Value.field?, Value.field?]
  rcases hfound : Value.valuesOf name fields with _ | ⟨v, _ | ⟨v', more⟩⟩
  · rw [hfound] at hvalues
    rw [← hvalues.nil_eq]
  · rw [hfound] at hvalues
    rw [List.perm_singleton.1 hvalues.symm]
  · rw [hfound] at hvalues
    rcases hother : Value.valuesOf name others with _ | ⟨w, _ | ⟨w', others⟩⟩
    · cases (hother ▸ hvalues.length_eq)
    · cases (hother ▸ hvalues.length_eq)
    · rfl

theorem perm_arranged (fields : List (String × Value)) : (arranged fields).Perm fields :=
  List.perm_append_comm.trans (List.filter_append_perm (fun field => isHeaded field.2) fields)

theorem field?_reproducedFields (name : String) (fields : List (String × Value)) :
    Value.field? (reproducedFields fields) name =
      (Value.field? fields name).map (Option.map reproduced) := by
  have hvalues : Value.valuesOf name (reproducedFields fields) =
      (Value.valuesOf name fields).map reproduced := by
    rw [Value.valuesOf_eq, Value.valuesOf_eq, reproducedFields_eq, List.filter_map, List.map_map, List.map_map]
    rfl
  rw [Value.field?, Value.field?, hvalues]
  rcases Value.valuesOf name fields with _ | ⟨v, _ | ⟨v', more⟩⟩ <;> rfl

/-! ## Records and lists -/

/-- **The fields of a record are read back**, each as what it is read back as. -/
theorem record?_reproduced (d : Dialect) (names : List String) (fields : List (String × Value)) :
    Value.record? d names (reproduced (.object fields)) =
      (Value.named? names fields).map (List.map (Option.map reproduced)) := by
  rw [reproduced, Value.record?, Value.named?, Value.named?]
  induction names with
  | nil => rfl
  | cons name names ih =>
    rw [List.mapM_cons, List.mapM_cons, ih, field?_perm (perm_arranged _),
      field?_reproducedFields]
    cases Value.field? fields name with
    | none => rfl
    | some entry => cases names.mapM (Value.field? fields) <;> rfl

/-- **A list is read back** if each of its items is. -/
theorem list?_reproduced {α : Type} {write : α → Value} (read : Value → Option α) (as : List α)
    (h : ∀ a ∈ as, read (reproduced (write a)) = some a) :
    Value.list? read (reproduced (.array (as.map write))) = some as := by
  rw [reproduced, Value.list?, reproducedItems_eq]
  induction as with
  | nil => rfl
  | cons a as ih =>
    obtain ⟨ha, has⟩ := List.forall_mem_cons.1 h
    rw [List.map_cons, List.map_cons, List.mapM_cons, ha, ih has]
    rfl

/-- The items of a list that is read are read. -/
theorem exists_of_list? {α : Type} {read : Value → Option α} {v : Value} {as : List α}
    (h : Value.list? read v = some as) : ∀ a ∈ as, ∃ v, read v = some a := by
  cases v with
  | array items => exact Value.exists_of_mapM h
  | _ => cases h

/-- A field that is present does not take its default. -/
theorem default?_some {α : Type} (read : Value → Option α) (default : α) (v : Value) :
    Value.default? read default (some v) = read v := by
  rw [Value.default?]

/-! ## Numbers -/

theorem lt_of_plainPairs? {text key : String} {n : Nat} (h : plainPairs? fields = some text)
    (hmem : (key, .unsigned n) ∈ fields) : n < Value.signedBound := by
  induction fields generalizing text with
  | nil => cases hmem
  | cons field rest ih =>
    obtain ⟨other, v⟩ := field
    rw [plainPairs?] at h
    rcases List.mem_cons.1 hmem with hfield | hmem
    · obtain ⟨rfl, rfl⟩ := Prod.mk.inj hfield
      by_contra hn
      simp [isHeaded, plain?, hn] at h
    · split at h
      · exact ih h hmem
      · simp only [Option.bind_eq_bind, Option.bind_eq_some_iff] at h
        obtain ⟨written, hwritten, more, hmore, -⟩ := h
        exact ih hmore hmem

theorem plainPairs?_of_headed? {path text key : String} (h : headed? path fields = some text)
    (hmem : (key, .object others) ∈ fields) : ∃ pairs, plainPairs? others = some pairs := by
  induction fields generalizing text with
  | nil => cases hmem
  | cons field rest ih =>
    obtain ⟨other, v⟩ := field
    rcases List.mem_cons.1 hmem with hfield | hmem
    · obtain ⟨rfl, rfl⟩ := Prod.mk.inj hfield
      obtain ⟨pairs, -, -, hpairs, -⟩ := headed?_object_eq_some h
      exact ⟨pairs, hpairs⟩
    · obtain ⟨more, hmore⟩ := exists_headed?_tail h
      exact ih hmore hmem

/-- Whether the pairs of a table can be written. -/
def HasPairs : Value → Prop
  | .object fields => ∃ pairs, plainPairs? fields = some pairs
  | _ => False

/-- **The tables of a document that can be written have pairs.** -/
theorem hasPairs_of_write {text : String} (h : write (.object fields) = some text) (key : String)
    (hmem : (key, .object others) ∈ fields) : HasPairs (.object others) := by
  simp only [write, Option.bind_eq_bind, Option.bind_eq_some_iff] at h
  obtain ⟨-, -, below, hbelow, -⟩ := h
  exact plainPairs?_of_headed? hbelow hmem

/-- **A number in a table that can be written fits.** -/
theorem HasPairs.lt {n : Nat} (h : HasPairs (.object fields)) (key : String)
    (hmem : (key, .unsigned n) ∈ fields) : n < Value.signedBound := by
  obtain ⟨pairs, hpairs⟩ := h
  exact lt_of_plainPairs? hpairs hmem

/-- A number that fits is read back. -/
theorem word?_reproduced {n : Nat} (h : n < Value.signedBound) :
    Value.word? (reproduced (.unsigned n)) = some n := by
  have hbound : Value.signedBound = 9223372036854775808 := by decide
  have hword : UInt64.size = 18446744073709551616 := rfl
  rw [reproduced, Value.word?, if_pos (by omega), Int.toNat_natCast]

end Rollout.Toml
