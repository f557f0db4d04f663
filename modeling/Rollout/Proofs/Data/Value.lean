import Mathlib.Data.List.Induction
import Mathlib.Data.String.Basic
import Rollout.Data.Value

/-!
# Proofs/Data/Value — what the readers of lists and dictionaries keep

Whatever a list or a dictionary is read as comes from one of its parts (`exists_of_mapM`,
`dictionary?_eq_some`), and a dictionary comes in the order of its keys, each key once
(`pairwise_sortedEntries`).  Made of a document, it holds the last value of every key
(`record?_canonical`), and byte strings do not depend on it (`fixedBytes?_canonical`).
-/

namespace Rollout

namespace Value

variable {α : Type} {key : String} {value : α} {entries : List (String × α)}

theorem mem_insertSorted {entry : String × α} (h : entry ∈ insertSorted key value entries) :
    entry = (key, value) ∨ entry ∈ entries := by
  fun_induction insertSorted key value entries <;> grind

theorem pairwise_insertSorted (h : entries.Pairwise (·.1 < ·.1)) :
    (insertSorted key value entries).Pairwise (·.1 < ·.1) := by
  induction entries with
  | nil => exact List.pairwise_singleton _ _
  | cons entry entries ih =>
    obtain ⟨hentry, hentries⟩ := List.pairwise_cons.1 h
    rw [insertSorted]
    split
    · next hkey => exact List.pairwise_cons.2 ⟨hkey ▸ hentry, hentries⟩
    split
    · next hlt =>
      refine List.pairwise_cons.2 ⟨List.forall_mem_cons.2 ⟨hlt, fun e he => ?_⟩, h⟩
      exact hlt.trans (hentry e he)
    · next hkey hlt =>
      refine List.pairwise_cons.2 ⟨fun e he => ?_, ih hentries⟩
      rcases mem_insertSorted he with rfl | he
      · exact lt_of_le_of_ne (le_of_not_gt hlt) (Ne.symm hkey)
      · exact hentry e he

/-- **The entries of a dictionary are in the order of their keys**, each key once. -/
theorem pairwise_sortedEntries (entries : List (String × α)) :
    (sortedEntries entries).Pairwise (·.1 < ·.1) :=
  List.foldlRecOn entries _ .nil fun _ h _ _ => pairwise_insertSorted h

theorem mem_of_mem_sortedEntries : ∀ entry ∈ sortedEntries entries, entry ∈ entries := by
  refine List.foldlRecOn (motive := fun es => ∀ e ∈ es, e ∈ entries) entries _ nofun ?_
  intro sorted h entry hentry e he
  rcases mem_insertSorted he with rfl | he
  · exact hentry
  · exact h e he

theorem exists_of_mapM {β : Type} {f : β → Option α} {bs : List β} {as : List α}
    (h : bs.mapM f = some as) : ∀ a ∈ as, ∃ b, f b = some a := by
  induction bs generalizing as with
  | nil =>
    cases h
    nofun
  | cons b bs ih =>
    simp only [List.mapM_cons, Option.bind_eq_bind, Option.bind_eq_some_iff, Option.pure_def,
      Option.some.injEq] at h
    obtain ⟨a, ha, as, has, rfl⟩ := h
    exact List.forall_mem_cons.2 ⟨⟨b, ha⟩, ih has⟩

/-- A dictionary that is read has its keys in order, and every value of it is read. -/
theorem dictionary?_eq_some {read : Value → Option α} {v : Value}
    (h : dictionary? read v = some entries) :
    entries.Pairwise (·.1 < ·.1) ∧ ∀ entry ∈ entries, ∃ w, read w = some entry.2 := by
  rcases v with _ | _ | _ | _ | _ | _ | _ | _ | fields <;> try cases h
  obtain ⟨found, hfound, rfl⟩ := Option.map_eq_some_iff.1 h
  refine ⟨pairwise_sortedEntries found, fun entry hentry => ?_⟩
  obtain ⟨field, hfield⟩ := exists_of_mapM hfound entry (mem_of_mem_sortedEntries _ hentry)
  obtain ⟨w, hw, rfl⟩ := Option.map_eq_some_iff.1 hfield
  exact ⟨field.2, hw⟩

/-! ## Fields of dictionaries -/

section Fields

variable {name : String} {fields : List (String × Value)} {v : Value}

/-- The values of a field are those of the entries with its name. -/
theorem valuesOf_eq (name : String) (fields : List (String × Value)) :
    valuesOf name fields = (fields.filter fun field => field.1 = name).map Prod.snd := by
  induction fields with
  | nil => rfl
  | cons field fields ih =>
    rw [valuesOf, List.filter_cons, ih]
    by_cases hname : field.1 = name
    · simp [hname]
    · simp [hname]

theorem valuesOf_append (fields more : List (String × Value)) :
    valuesOf name (fields ++ more) = valuesOf name fields ++ valuesOf name more := by
  rw [valuesOf_eq, valuesOf_eq, valuesOf_eq, List.filter_append, List.map_append]

theorem valuesOf_eq_nil_of_lt (h : ∀ field ∈ fields, key < field.1) : valuesOf key fields = [] := by
  rw [valuesOf_eq, List.map_eq_nil_iff, List.filter_eq_nil_iff]
  exact fun field hfield hsame => (h field hfield).ne' (of_decide_eq_true hsame)

/-- A new value of a key takes the place of the value before. -/
theorem valuesOf_insertSorted_self (h : fields.Pairwise (·.1 < ·.1)) :
    valuesOf key (insertSorted key v fields) = [v] := by
  induction fields with
  | nil => exact if_pos rfl
  | cons field fields ih =>
    obtain ⟨hfield, hfields⟩ := List.pairwise_cons.1 h
    rw [insertSorted]
    split
    · next hkey => rw [valuesOf, if_pos rfl, valuesOf_eq_nil_of_lt (hkey ▸ hfield)]
    split
    · next hlt =>
      have hlater : ∀ e ∈ field :: fields, key < e.1 :=
        List.forall_mem_cons.2 ⟨hlt, fun e he => hlt.trans (hfield e he)⟩
      rw [valuesOf, if_pos rfl, valuesOf_eq_nil_of_lt hlater]
    · next hkey _ => rw [valuesOf, if_neg (Ne.symm hkey), ih hfields]

/-- Other keys keep their values. -/
theorem valuesOf_insertSorted_of_ne (h : key ≠ name) :
    valuesOf name (insertSorted key v fields) = valuesOf name fields := by
  fun_induction insertSorted key v fields <;> simp_all [valuesOf]

/-- **Of a repeated key the last value counts.** -/
theorem field?_sortedEntries (fields : List (String × Value)) (name : String) :
    field? (sortedEntries fields) name = some (valuesOf name fields).getLast? := by
  have hvalues : valuesOf name (sortedEntries fields) = (valuesOf name fields).getLast?.toList := by
    induction fields using List.reverseRecOn with
    | nil => rfl
    | append_singleton fields field ih =>
      have hinsert : sortedEntries (fields ++ [field]) =
          insertSorted field.1 field.2 (sortedEntries fields) := by
        simp [sortedEntries]
      rw [hinsert, valuesOf_append, valuesOf, valuesOf]
      split
      · next hname =>
        rw [hname, valuesOf_insertSorted_self (pairwise_sortedEntries fields), List.getLast?_concat]
        rfl
      · next hname => rw [valuesOf_insertSorted_of_ne hname, List.append_nil, ih]
  rw [field?, hvalues]
  cases (valuesOf name fields).getLast? <;> rfl

end Fields

/-! ## Dictionaries in documents -/

/-- A record is read from the last values of its fields. -/
theorem record?_canonical (d : Dialect) (names : List String) (fields : List (String × Value)) :
    record? d names (object fields).canonical =
      some (names.map fun name => (valuesOf name (canonicalFields fields)).getLast?) := by
  rw [canonical, record?, named?, funext (field?_sortedEntries _)]
  exact List.mapM_pure

theorem canonicalItems_eq_map (items : List Value) :
    canonicalItems items = items.map canonical := by
  induction items with
  | nil => rfl
  | cons v items ih => rw [canonicalItems, ih, List.map_cons]

/-- Only null becomes null. -/
theorem canonical_eq_null_iff {v : Value} : v.canonical = null ↔ v = null := by
  cases v <;> simp [canonical]

theorem byte?_canonical (v : Value) : byte? v.canonical = byte? v := by
  cases v <;> rfl

theorem bytes?_map_canonical (d : Dialect) (n : Nat) (items : List Value) :
    bytes? d n (items.map canonical) = bytes? d n items := by
  have hbytes (items : List Value) : (items.map canonical).mapM byte? = items.mapM byte? := by
    rw [List.mapM_map]
    exact congrArg (List.mapM · items) (funext byte?_canonical)
  rw [bytes?, bytes?, ← List.map_take, hbytes, ← List.map_drop]
  cases (items.take n).mapM byte? with
  | none => rfl
  | some bytes =>
    cases items.drop n with
    | nil => rfl
    | cons extra more => simp only [List.map_cons, byte?_canonical, List.map_eq_nil_iff]

/-- A byte string is the same, read from a value as it is or from its dictionaries. -/
theorem fixedBytes?_canonical (d : Dialect) (n : Nat) (v : Value) :
    fixedBytes? d n v.canonical = fixedBytes? d n v := by
  cases v with
  | array items =>
    rw [canonical, canonicalItems_eq_map]
    exact bytes?_map_canonical d n items
  | _ => rfl

end Value

end Rollout
