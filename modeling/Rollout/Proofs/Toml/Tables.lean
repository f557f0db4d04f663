import Mathlib.Data.List.Nodup
import Rollout.Proofs.Toml.Lines

/-!
# Proofs/Toml/Tables — every document is read back as it was written

The writer puts the pairs of a table first, and behind them its tables and lists of tables, each as
a section of its own (`sectionsOf`): a heading with the whole path, and pairs.  Its text renders the
lines of the sections (`renders_sections`), and the reader adds to the document what each section
holds (`applyAll_sections`).  So a document with keys that need no quotes is read back as what was
written, with the fields of every table in the order of its text (`parse_write`).

Both facts go along a path.  Whatever a section adds below a table is added to the last table that
its path leads to (`applyAll_below`), and a key is new to the table that holds it, because no key
occurs twice.
-/

namespace Rollout.Toml

variable {names : List String} {key : String} {fields : List (String × Value)} {v : Value}

/-! ## Documents -/

/-- **A document that can be read back**: keys that need no quotes, each once in its table, and tables
nested no deeper than keys may have names. -/
inductive Tidy : Nat → Value → Prop where
  | plain {room : Nat} {v : Value} (h : Plain v) : Tidy room v
  | list {room : Nat} {items : List Value} (h : ∀ v ∈ items, Tidy room v) : Tidy room (.array items)
  | table {room : Nat} {fields : List (String × Value)} (hkeys : (fields.map Prod.fst).Nodup)
      (hbare : ∀ field ∈ fields, IsBare field.1) (h : ∀ field ∈ fields, Tidy room field.2) :
      Tidy (room + 1) (.object fields)

/-- Of what stands in a line, every value is plain. -/
theorem Tidy.plain_of_plain? {room : Nat} {text : String} (h : Tidy room v)
    (hheaded : isHeaded v = false) (htext : plain? v = some text) : Plain v := by
  cases h with
  | plain h => exact h
  | @list room items h =>
    cases items with
    | nil => exact .none
    | cons v rest => cases htext
  | table => cases hheaded

/-- What is known of a table: there is room for it, and its fields are as tidy as it is. -/
structure TidyTable (room : Nat) (fields : List (String × Value)) : Prop where
  keys : (fields.map Prod.fst).Nodup
  bare : ∀ field ∈ fields, IsBare field.1
  values : ∀ field ∈ fields, Tidy room field.2

theorem Tidy.table_of_object {room : Nat} (h : Tidy room (.object fields)) :
    ∃ less, room = less + 1 ∧ TidyTable less fields := by
  cases h with
  | plain h => cases h
  | table hkeys hbare h => exact ⟨_, rfl, hkeys, hbare, h⟩

theorem Tidy.items_of_array {room : Nat} {items : List Value} (h : Tidy room (.array items)) :
    ∀ v ∈ items, Tidy room v := by
  cases h with
  | plain h =>
    cases h
    nofun
  | list h => exact h

/-- The pairs of a table. -/
def pairsOf (fields : List (String × Value)) : List Pair :=
  (fields.filter fun field => !isHeaded field.2).map fun field => ⟨[], field.1, reproduced field.2⟩

theorem TidyTable.tail {room : Nat} {field : String × Value} {rest : List (String × Value)}
    (h : TidyTable room (field :: rest)) : TidyTable room rest where
  keys := (List.nodup_cons.1 h.keys).2
  bare other hother := h.bare other (List.mem_cons_of_mem _ hother)
  values other hother := h.values other (List.mem_cons_of_mem _ hother)

theorem renders_plainPairs {room : Nat} {text : String} (htidy : TidyTable room fields)
    (h : plainPairs? fields = some text) : Renders text.toList ((pairsOf fields).map .pair) := by
  induction fields generalizing text with
  | nil =>
    obtain rfl := Option.some.inj h
    exact renders_nil
  | cons field rest ih =>
    obtain ⟨key, v⟩ := field
    have hkey : IsBare key := htidy.bare _ (List.mem_cons_self ..)
    have hv : Tidy room v := htidy.values _ (List.mem_cons_self ..)
    rw [plainPairs?] at h
    cases hheaded : isHeaded v with
    | true =>
      rw [if_pos hheaded] at h
      have hpairs : pairsOf ((key, v) :: rest) = pairsOf rest := by simp [pairsOf, hheaded]
      rw [hpairs]
      exact ih htidy.tail h
    | false =>
      have hpairs : pairsOf ((key, v) :: rest) = ⟨[], key, reproduced v⟩ :: pairsOf rest := by
        simp [pairsOf, hheaded]
      simp only [hheaded, Bool.false_eq_true, if_false, Option.bind_eq_bind,
        Option.bind_eq_some_iff, Option.pure_def, Option.some.injEq] at h
      obtain ⟨written, hwritten, more, hmore, rfl⟩ := h
      rw [hpairs, String.toList_append]
      exact (renders_pair hkey (hv.plain_of_plain? hheaded hwritten) hwritten).append
        (ih htidy.tail hmore)

/-! ## Sections -/

/-- A heading and the pairs under it. -/
structure Section where
  /-- Whether the heading is one of a list of tables. -/
  repeated : Bool
  path : List String
  key : String
  pairs : List Pair

namespace Section

/-- The section as one of a table with the given name. -/
def below (name : String) (s : Section) : Section :=
  { s with path := name :: s.path }

/-- The lines of a section in a table at the given path. -/
def lines (names : List String) (s : Section) : List Line :=
  .blank :: headingLine s.repeated (names ++ s.path) s.key :: s.pairs.map .pair

theorem lines_below (names : List String) (name : String) (s : Section) :
    (s.below name).lines names = s.lines (names ++ [name]) := by
  simp [lines, below]

end Section

mutual

/-- The sections behind the pairs of a table. -/
def sectionsOf : List (String × Value) → List Section
  | [] => []
  | (key, .object fields) :: rest =>
    ⟨false, [], key, pairsOf fields⟩ :: ((sectionsOf fields).map (.below key) ++ sectionsOf rest)
  | (key, .array items) :: rest =>
    (if isTableList items then elementSections key items else []) ++ sectionsOf rest
  | _ :: rest => sectionsOf rest

/-- The sections of a list of tables. -/
def elementSections (key : String) : List Value → List Section
  | [] => []
  | .object fields :: rest =>
    ⟨true, [], key, pairsOf fields⟩ ::
      ((sectionsOf fields).map (.below key) ++ elementSections key rest)
  | _ :: rest => elementSections key rest

end

/-- The lines of sections in a table at the given path. -/
def linesOf (names : List String) (sections : List Section) : List Line :=
  sections.flatMap (Section.lines names)

theorem linesOf_append (names : List String) (sections more : List Section) :
    linesOf names (sections ++ more) = linesOf names sections ++ linesOf names more :=
  List.flatMap_append

theorem linesOf_below (names : List String) (name : String) (sections : List Section) :
    linesOf names (sections.map (.below name)) = linesOf (names ++ [name]) sections := by
  simp [linesOf, List.flatMap_map, Section.lines_below]

/-- The text of a section: its heading, its pairs, and the sections below it. -/
theorem renders_section (repeated : Bool) {pairs below : String} {ps : List Pair}
    {sections : List Section} (hnames : ∀ name ∈ names, IsBare name) (hkey : IsBare key)
    (hroom : names.length < depthLimit) (hpairs : Renders pairs.toList (ps.map .pair))
    (hbelow : Renders below.toList (linesOf (names ++ [key]) sections)) :
    Renders ("\n" ++ headingText repeated (prefixText names ++ key) ++ "\n" ++ pairs ++ below).toList
      (linesOf names (⟨repeated, [], key, ps⟩ :: sections.map (.below key))) := by
  have hheading := renders_blank.append (renders_heading repeated hnames hkey hroom)
  have hlines : linesOf names (⟨repeated, [], key, ps⟩ :: sections.map (.below key)) =
      ([.blank] ++ [headingLine repeated names key]) ++ ps.map .pair ++
        linesOf (names ++ [key]) sections := by
    rw [← linesOf_below]
    simp [linesOf, Section.lines]
  rw [hlines]
  simpa using (hheading.append hpairs).append hbelow

/-- What the path of a heading allows: its names need no quotes, and there is room for more. -/
structure Reachable (names : List String) (room : Nat) : Prop where
  bare : ∀ name ∈ names, IsBare name
  depth : names.length + room ≤ depthLimit

theorem Reachable.child {room : Nat} (h : Reachable names (room + 1)) (hkey : IsBare key) :
    Reachable (names ++ [key]) room where
  bare name hname := by
    rcases List.mem_append.1 hname with hname | hname
    · exact h.bare name hname
    · rwa [List.mem_singleton.1 hname]
  depth := by
    have hdepth := h.depth
    simp only [List.length_append, List.length_singleton]
    omega

theorem Reachable.lt {room : Nat} (h : Reachable names (room + 1)) : names.length < depthLimit := by
  have hdepth := h.depth
  omega

theorem prefixText_concat (names : List String) (key : String) :
    prefixText (names ++ [key]) = prefixText names ++ key ++ "." := by
  rw [prefixText_append, String.append_assoc]
  simp [prefixText]

/-- What is written of a table under a heading, and of the fields behind it. -/
theorem headed?_object_eq_some {path text : String} {rest : List (String × Value)}
    (h : headed? path ((key, .object fields) :: rest) = some text) :
    ∃ pairs below more, plainPairs? fields = some pairs ∧
      headed? (path ++ key ++ ".") fields = some below ∧ headed? path rest = some more ∧
      text = "\n" ++ headingText false (path ++ key) ++ "\n" ++ pairs ++ below ++ more := by
  simp only [headed?, Option.bind_eq_bind, Option.bind_eq_some_iff, Option.pure_def,
    Option.some.injEq] at h
  obtain ⟨pairs, hpairs, below, hbelow, more, hmore, rfl⟩ := h
  exact ⟨pairs, below, more, hpairs, hbelow, hmore, String.toList_inj.1 (by simp [headingText])⟩

theorem headed?_array_eq_some {path text : String} {items : List Value}
    {rest : List (String × Value)} (hlist : isTableList items = true)
    (h : headed? path ((key, .array items) :: rest) = some text) :
    ∃ elements more, elements? (path ++ key) items = some elements ∧
      headed? path rest = some more ∧ text = elements ++ more := by
  simp only [headed?, hlist, if_true, Option.bind_eq_bind, Option.bind_eq_some_iff,
    Option.pure_def, Option.some.injEq] at h
  obtain ⟨elements, helements, more, hmore, rfl⟩ := h
  exact ⟨elements, more, helements, hmore, rfl⟩

/-- Neither a table nor a list stands under a heading. -/
theorem isHeaded_of_not {field : String × Value}
    (hobject : ∀ key fields, field = (key, .object fields) → False)
    (harray : ∀ key items, field = (key, .array items) → False) : isHeaded field.2 = false := by
  obtain ⟨key, v⟩ := field
  cases v with
  | object fields => exact absurd rfl (hobject key fields)
  | array items => exact absurd rfl (harray key items)
  | _ => rfl

/-- What stands in a line is not written under a heading. -/
theorem headed?_of_plain {path : String} {rest : List (String × Value)} (h : isHeaded v = false) :
    headed? path ((key, v) :: rest) = headed? path rest := by
  cases v with
  | object fields => cases h
  | array items =>
    have hlist : ¬ isTableList items = true := by simpa [isHeaded] using h
    rw [headed?, if_neg hlist]
    cases headed? path rest <;> simp
  | _ => rw [headed?] <;> rintro _ _ ⟨⟩

theorem exists_headed?_tail {path text : String} {rest : List (String × Value)}
    (h : headed? path ((key, v) :: rest) = some text) : ∃ more, headed? path rest = some more := by
  cases hheaded : isHeaded v with
  | false => exact ⟨text, (headed?_of_plain hheaded).symm.trans h⟩
  | true =>
    cases v with
    | object fields =>
      obtain ⟨-, -, more, -, -, hmore, -⟩ := headed?_object_eq_some h
      exact ⟨more, hmore⟩
    | array items =>
      obtain ⟨-, more, -, hmore, -⟩ := headed?_array_eq_some hheaded h
      exact ⟨more, hmore⟩
    | _ => cases hheaded

/-- What is written of one more table in a list, and of the tables behind it. -/
theorem elements?_object_eq_some {name text : String} {rest : List Value}
    (h : elements? name (.object fields :: rest) = some text) :
    ∃ pairs below more, plainPairs? fields = some pairs ∧
      headed? (name ++ ".") fields = some below ∧ elements? name rest = some more ∧
      text = "\n" ++ headingText true name ++ "\n" ++ pairs ++ below ++ more := by
  simp only [elements?, Option.bind_eq_bind, Option.bind_eq_some_iff, Option.pure_def,
    Option.some.injEq] at h
  obtain ⟨pairs, hpairs, below, hbelow, more, hmore, rfl⟩ := h
  exact ⟨pairs, below, more, hpairs, hbelow, hmore, String.toList_inj.1 (by simp [headingText])⟩

theorem sectionsOf_of_plain {rest : List (String × Value)} (h : isHeaded v = false) :
    sectionsOf ((key, v) :: rest) = sectionsOf rest := by
  cases v with
  | object fields => cases h
  | array items =>
    have hlist : ¬ isTableList items = true := by simpa [isHeaded] using h
    rw [sectionsOf, if_neg hlist, List.nil_append]
  | _ => rw [sectionsOf] <;> rintro _ _ ⟨⟩

/-- The text of the tables of a table renders their sections, and so does the text of the tables of a
list. -/
theorem renders_sections :
    (∀ path fields, ∀ {names room text}, path = prefixText names → Reachable names room →
      TidyTable room fields → headed? path fields = some text →
      Renders text.toList (linesOf names (sectionsOf fields))) ∧
    (∀ name items, ∀ {names key room text}, name = prefixText names ++ key → IsBare key →
      Reachable names room → (∀ v ∈ items, Tidy room v) → elements? name items = some text →
      Renders text.toList (linesOf names (elementSections key items))) := by
  refine headed?.mutual_induct _ _ ?nil ?table ?list ?notList ?plain ?none ?element ?other
  case nil =>
    intro path names room text hpath hreach htidy h
    rw [headed?] at h
    obtain rfl := Option.some.inj h
    rw [sectionsOf]
    exact renders_nil
  case table =>
    intro path key fields rest name ihfields ihrest names room text hpath hreach htidy h
    subst hpath
    have hkey : IsBare key := htidy.bare _ (List.mem_cons_self ..)
    obtain ⟨less, rfl, htable⟩ := (htidy.values _ (List.mem_cons_self ..)).table_of_object
    obtain ⟨pairs, below, more, hpairs, hbelow, hmore, rfl⟩ := headed?_object_eq_some h
    have hfields := ihfields (prefixText_concat names key).symm (hreach.child hkey) htable hbelow
    have hsection := renders_section false hreach.bare hkey hreach.lt
      (renders_plainPairs htable hpairs) hfields
    rw [sectionsOf, ← List.cons_append, linesOf_append, String.toList_append]
    exact hsection.append (ihrest rfl hreach htidy.tail hmore)
  case list =>
    intro path key items rest hlist ihrest ihitems names room text hpath hreach htidy h
    have hkey : IsBare key := htidy.bare _ (List.mem_cons_self ..)
    obtain ⟨elements, more, helements, hmore, rfl⟩ := headed?_array_eq_some hlist h
    have hitems := ihitems (congrArg (· ++ key) hpath) hkey hreach
      (htidy.values _ (List.mem_cons_self ..)).items_of_array helements
    rw [sectionsOf, if_pos hlist, linesOf_append, String.toList_append]
    exact hitems.append (ihrest hpath hreach htidy.tail hmore)
  case notList =>
    intro path key items rest hlist ihrest names room text hpath hreach htidy h
    have hplain : isHeaded (.array items) = false := Bool.eq_false_iff.2 hlist
    rw [headed?_of_plain hplain] at h
    rw [sectionsOf_of_plain hplain]
    exact ihrest hpath hreach htidy.tail h
  case plain =>
    intro path field rest hobject harray ihrest names room text hpath hreach htidy h
    have hplain := isHeaded_of_not hobject harray
    rw [headed?_of_plain hplain] at h
    rw [sectionsOf_of_plain hplain]
    exact ihrest hpath hreach htidy.tail h
  case none =>
    intro name names key room text hname hkey hreach htidy h
    rw [elements?] at h
    obtain rfl := Option.some.inj h
    rw [elementSections]
    exact renders_nil
  case element =>
    intro name fields rest ihfields ihrest names key room text hname hkey hreach htidy h
    subst hname
    obtain ⟨helement, htidy⟩ := List.forall_mem_cons.1 htidy
    obtain ⟨less, rfl, htable⟩ := helement.table_of_object
    obtain ⟨pairs, below, more, hpairs, hbelow, hmore, rfl⟩ := elements?_object_eq_some h
    have hfields := ihfields (prefixText_concat names key).symm (hreach.child hkey) htable hbelow
    have hsection := renders_section true hreach.bare hkey hreach.lt
      (renders_plainPairs htable hpairs) hfields
    rw [elementSections, ← List.cons_append, linesOf_append, String.toList_append]
    exact hsection.append (ihrest rfl hkey hreach htidy hmore)
  case other =>
    intro name v rest hobject names key room text hname hkey hreach htidy h
    rw [elements?] at h
    · cases h
    · exact hobject

/-! ## Tables under construction -/

section Entries

variable {entries sub : Entries} {item : Item} {name : String}

theorem child?_eq_none : child? name entries = none ↔ name ∉ entries.map Prod.fst := by
  induction entries with
  | nil => simp [child?]
  | cons entry rest ih =>
    obtain ⟨key, item⟩ := entry
    rw [child?]
    by_cases hkey : key = name
    · simp [hkey]
    · simp [hkey, ih, Ne.symm hkey]

/-- The entry of a new key. -/
theorem child?_concat (h : child? name entries = none) :
    child? name (entries ++ [(name, item)]) = some item := by
  induction entries with
  | nil => simp [child?]
  | cons entry rest ih =>
    obtain ⟨key, old⟩ := entry
    rw [child?] at h
    split_ifs at h with hkey
    rw [List.cons_append, child?, if_neg hkey, ih h]

/-- The entry of a new key is changed in its place. -/
theorem setChild_concat {new : Item} (h : child? name entries = none) :
    setChild name new (entries ++ [(name, item)]) = entries ++ [(name, new)] := by
  induction entries with
  | nil => simp [setChild]
  | cons entry rest ih =>
    obtain ⟨key, old⟩ := entry
    rw [child?] at h
    split_ifs at h with hkey
    rw [List.cons_append, setChild, if_neg hkey, ih h, List.cons_append]

theorem child?_append (h : child? name entries = none) (more : Entries) :
    child? name (entries ++ more) = child? name more := by
  induction entries with
  | nil => rfl
  | cons entry rest ih =>
    obtain ⟨key, old⟩ := entry
    rw [child?] at h
    split_ifs at h with hkey
    rw [List.cons_append, child?, if_neg hkey, ih h]

/-- The entry of a pair. -/
def leafOf (p : Pair) : String × Item := (p.key, .leaf p.value)

/-- **Pairs with new keys are added as they are.** -/
theorem addAll_of_new {pairs : List Pair} (hpath : ∀ p ∈ pairs, p.path = [])
    (hkeys : (pairs.map Pair.key).Nodup) (hnew : ∀ p ∈ pairs, child? p.key entries = none) :
    addAll pairs entries = some (entries ++ pairs.map leafOf) := by
  induction pairs generalizing entries with
  | nil => simp [addAll]
  | cons p pairs ih =>
    obtain ⟨hfirst, hpath⟩ := List.forall_mem_cons.1 hpath
    obtain ⟨hother, hkeys⟩ := List.nodup_cons.1 hkeys
    obtain ⟨hp, hnew⟩ := List.forall_mem_cons.1 hnew
    have hadd : p.addTo entries = some (entries ++ [leafOf p]) := by
      rw [Pair.addTo, hfirst, addPair, hp]
      rfl
    have hmore : addAll pairs (entries ++ [leafOf p]) =
        some (entries ++ [leafOf p] ++ pairs.map leafOf) := by
      refine ih hpath hkeys fun q hq => ?_
      rw [child?_append (hnew q hq), leafOf, child?, if_neg, child?]
      rintro hsame
      exact hother (hsame ▸ List.mem_map_of_mem hq)
    rw [addAll, List.foldlM_cons, hadd]
    change addAll pairs (entries ++ [leafOf p]) = _
    rw [hmore]
    simp

end Entries

namespace Section

/-- Adds the table of a section. -/
def apply (s : Section) (entries : Entries) : Option Entries :=
  if s.repeated then addElement s.key s.pairs s.path entries
  else addTable s.key s.pairs s.path entries

end Section

def applyAll (sections : List Section) (entries : Entries) : Option Entries :=
  sections.foldlM (fun entries s => s.apply entries) entries

section Below

variable {entries sub : Entries} {name : String}

theorem apply_below_table (h : child? name entries = none) (s : Section) (sub : Entries) :
    (s.below name).apply (entries ++ [(name, .table false false sub)]) =
      (s.apply sub).map fun sub => entries ++ [(name, .table false false sub)] := by
  rw [Section.apply, Section.apply, Section.below]
  split
  · simp only [addElement, child?_concat h, setChild_concat h]
  · simp only [addTable, child?_concat h, setChild_concat h]

theorem apply_below_tables (h : child? name entries = none) (done : List Entries) (s : Section)
    (last : Entries) :
    (s.below name).apply (entries ++ [(name, .tables (done ++ [last]))]) =
      (s.apply last).map fun last => entries ++ [(name, .tables (done ++ [last]))] := by
  rw [Section.apply, Section.apply, Section.below]
  split
  · simp [addElement, child?_concat h, setChild_concat h]
  · simp [addTable, child?_concat h, setChild_concat h]

/-- What is added below a heading is added to its table. -/
theorem applyAll_below {wrap : Entries → Item}
    (hwrap : ∀ s sub, (Section.below name s).apply (entries ++ [(name, wrap sub)]) =
      (s.apply sub).map fun sub => entries ++ [(name, wrap sub)]) (sections : List Section)
    (sub : Entries) :
    applyAll (sections.map (.below name)) (entries ++ [(name, wrap sub)]) =
      (applyAll sections sub).map fun sub => entries ++ [(name, wrap sub)] := by
  induction sections generalizing sub with
  | nil => rfl
  | cons s sections ih =>
    simp only [applyAll, List.map_cons, List.foldlM_cons, hwrap] at ih ⊢
    cases s.apply sub with
    | none => rfl
    | some sub => exact ih sub

end Below

/-! ## Documents under construction -/

theorem fieldsOf_append (entries more : Entries) :
    fieldsOf (entries ++ more) = fieldsOf entries ++ fieldsOf more := by
  induction entries with
  | nil => rfl
  | cons entry rest ih =>
    obtain ⟨key, item⟩ := entry
    rw [List.cons_append, fieldsOf, fieldsOf, ih, List.cons_append]

/-- The entries of the pairs of a table. -/
def leavesOf (fields : List (String × Value)) : Entries :=
  (pairsOf fields).map leafOf

theorem fieldsOf_leavesOf (fields : List (String × Value)) :
    fieldsOf (leavesOf fields) =
      (reproducedFields fields).filter fun field => !isHeaded field.2 := by
  induction fields with
  | nil => rfl
  | cons field rest ih =>
    obtain ⟨key, v⟩ := field
    rw [leavesOf, pairsOf] at ih
    rw [leavesOf, pairsOf, reproducedFields, List.filter_cons, List.filter_cons]
    simp only [isHeaded_reproduced]
    split
    · rw [List.map_cons, List.map_cons, leafOf, fieldsOf, ih, Item.toValue]
    · exact ih

theorem addAll_pairsOf {room : Nat} (h : TidyTable room fields) :
    addAll (pairsOf fields) [] = some (leavesOf fields) := by
  refine (addAll_of_new ?_ ?_ fun _ _ => rfl).trans (congrArg some (List.nil_append _))
  · intro p hp
    obtain ⟨field, -, rfl⟩ := List.mem_map.1 hp
    rfl
  · rw [pairsOf, List.map_map]
    exact h.keys.sublist (List.filter_sublist.map _)

/-- The fields of a table that stand under headings, as they are read back. -/
def headedOf (fields : List (String × Value)) : List (String × Value) :=
  (reproducedFields fields).filter fun field => isHeaded field.2

theorem headedOf_of_headed {rest : List (String × Value)} (h : isHeaded v = true) :
    headedOf ((key, v) :: rest) = (key, reproduced v) :: headedOf rest := by
  rw [headedOf, reproducedFields]
  exact List.filter_cons_of_pos ((isHeaded_reproduced v).trans h)

theorem headedOf_of_plain {rest : List (String × Value)} (h : isHeaded v = false) :
    headedOf ((key, v) :: rest) = headedOf rest := by
  rw [headedOf, reproducedFields]
  exact List.filter_cons_of_neg (by simp [isHeaded_reproduced, h])

/-- A list of tables under a new key, as long as there are any. -/
def withTables (entries : Entries) (key : String) (elements : List Entries) : Entries :=
  if elements = [] then entries else entries ++ [(key, .tables elements)]

theorem withTables_concat (entries : Entries) (key : String) (elements : List Entries)
    (last : Entries) :
    withTables entries key (elements ++ [last]) = entries ++ [(key, .tables (elements ++ [last]))] :=
  if_neg (by simp)

/-- One more table is added to a list of tables. -/
theorem addElement_withTables {room : Nat} {entries : Entries} (h : child? key entries = none)
    (elements : List Entries) (htidy : TidyTable room fields) :
    addElement key (pairsOf fields) [] (withTables entries key elements) =
      some (withTables entries key (elements ++ [leavesOf fields])) := by
  rw [withTables_concat, withTables]
  split
  · next hnone => simp [addElement, h, addAll_pairsOf htidy, hnone]
  · simp [addElement, child?_concat h, setChild_concat h, addAll_pairsOf htidy]

theorem applyAll_cons (s : Section) (sections : List Section) (entries : Entries) :
    applyAll (s :: sections) entries = (s.apply entries).bind (applyAll sections) :=
  List.foldlM_cons ..

theorem applyAll_append (sections more : List Section) (entries : Entries) :
    applyAll (sections ++ more) entries = (applyAll sections entries).bind (applyAll more) :=
  List.foldlM_append ..

/-- The keys of the fields that stand under headings are new to a table. -/
def NewTo (entries : Entries) (fields : List (String × Value)) : Prop :=
  ∀ field ∈ fields, isHeaded field.2 = true → child? field.1 entries = none

theorem NewTo.tail {entries : Entries} {field : String × Value} {rest : List (String × Value)}
    (h : NewTo entries (field :: rest)) : NewTo entries rest :=
  fun other hother => h other (List.mem_cons_of_mem _ hother)

/-- An entry of another key makes no difference. -/
theorem NewTo.concat {entries : Entries} (h : NewTo entries fields)
    (hkey : key ∉ fields.map Prod.fst) (item : Item) : NewTo (entries ++ [(key, item)]) fields := by
  intro field hfield hheaded
  rw [child?_append (h field hfield hheaded), child?, if_neg, child?]
  rintro rfl
  exact hkey (List.mem_map_of_mem hfield)

theorem TidyTable.newTo_leavesOf {room : Nat} (h : TidyTable room fields) :
    NewTo (leavesOf fields) fields := by
  intro field hfield hheaded
  rw [child?_eq_none]
  intro hkey
  simp only [leavesOf, pairsOf, List.map_map, List.mem_map, List.mem_filter] at hkey
  obtain ⟨other, ⟨hother, hplain⟩, hsame⟩ := hkey
  obtain rfl := List.inj_on_of_nodup_map h.keys hother hfield hsame
  rw [hheaded] at hplain
  cases hplain

/-- The section of a table and those below it add one entry. -/
theorem applyAll_table {room : Nat} {entries below : Entries} (hkey : child? key entries = none)
    (htable : TidyTable room fields)
    (hbelow : applyAll (sectionsOf fields) (leavesOf fields) = some (leavesOf fields ++ below)) :
    applyAll (⟨false, [], key, pairsOf fields⟩ :: (sectionsOf fields).map (.below key)) entries =
      some (entries ++ [(key, .table false false (leavesOf fields ++ below))]) := by
  have hheading : Section.apply ⟨false, [], key, pairsOf fields⟩ entries =
      some (entries ++ [(key, .table false false (leavesOf fields))]) := by
    simp [Section.apply, addTable, hkey, addAll_pairsOf htable]
  have hsections := applyAll_below (apply_below_table hkey) (sectionsOf fields) (leavesOf fields)
  rw [applyAll_cons, hheading, Option.bind_some, hsections, hbelow]
  rfl

/-- The section of one more table in a list and those below it add one element. -/
theorem applyAll_element {room : Nat} {entries below : Entries} (hkey : child? key entries = none)
    (done : List Entries) (htable : TidyTable room fields)
    (hbelow : applyAll (sectionsOf fields) (leavesOf fields) = some (leavesOf fields ++ below)) :
    applyAll (⟨true, [], key, pairsOf fields⟩ :: (sectionsOf fields).map (.below key))
        (withTables entries key done) =
      some (withTables entries key (done ++ [leavesOf fields ++ below])) := by
  have hheading : Section.apply ⟨true, [], key, pairsOf fields⟩ (withTables entries key done) =
      some (withTables entries key (done ++ [leavesOf fields])) :=
    addElement_withTables hkey done htable
  have hsections := applyAll_below (apply_below_tables hkey done) (sectionsOf fields)
    (leavesOf fields)
  rw [applyAll_cons, hheading, Option.bind_some, withTables_concat, hsections, hbelow,
    Option.map_some, withTables_concat]

/-- The elements of a list that is not empty are tables. -/
theorem objects_of_isTableList {items : List Value} (h : isTableList items = true) :
    items ≠ [] ∧ ∀ v ∈ items, ∃ fields, v = .object fields := by
  obtain ⟨hne, hall⟩ := Bool.and_eq_true_iff.1 h
  refine ⟨of_decide_eq_true hne, fun v hv => ?_⟩
  have hobject := List.all_eq_true.1 hall v hv
  cases v with
  | object fields => exact ⟨fields, rfl⟩
  | _ => cases hobject

/-- **The sections of a table add what it is read back as**, and so do those of a list of tables. -/
theorem applyAll_sections :
    (∀ fields, ∀ {room entries}, TidyTable room fields → NewTo entries fields →
      ∃ added, applyAll (sectionsOf fields) entries = some (entries ++ added) ∧
        fieldsOf added = headedOf fields) ∧
    (∀ key items, ∀ {room entries} (done), (∀ v ∈ items, Tidy room v) →
      (∀ v ∈ items, ∃ fields, v = .object fields) → child? key entries = none →
      ∃ added, applyAll (elementSections key items) (withTables entries key done) =
          some (withTables entries key (done ++ added)) ∧
        elementsOf added = reproducedItems items) := by
  refine sectionsOf.mutual_induct _ _ ?nil ?table ?list ?plain ?none ?element ?other
  case nil =>
    intro room entries htidy hnew
    exact ⟨[], by rw [sectionsOf, List.append_nil]; rfl, rfl⟩
  case table =>
    intro key fields rest ihfields ihrest room entries htidy hnew
    have hkey : child? key entries = none := hnew _ (List.mem_cons_self ..) rfl
    obtain ⟨less, rfl, htable⟩ := (htidy.values _ (List.mem_cons_self ..)).table_of_object
    obtain ⟨below, hbelow, hread⟩ := ihfields htable htable.newTo_leavesOf
    obtain ⟨added, hadded, hrest⟩ := ihrest htidy.tail
      (hnew.tail.concat (List.nodup_cons.1 htidy.keys).1
        (.table false false (leavesOf fields ++ below)))
    refine ⟨(key, .table false false (leavesOf fields ++ below)) :: added, ?_, ?_⟩
    · rw [sectionsOf, ← List.cons_append, applyAll_append, applyAll_table hkey htable hbelow,
        Option.bind_some, hadded, List.append_assoc]
      rfl
    · rw [fieldsOf, Item.toValue, fieldsOf_append, fieldsOf_leavesOf, hread, hrest,
        headedOf_of_headed rfl, reproduced]
      rfl
  case list =>
    intro key items rest ihitems ihrest room entries htidy hnew
    cases hlist : isTableList items with
    | true =>
      have hheaded : isHeaded (.array items) = true := hlist
      have hkey : child? key entries = none := hnew _ (List.mem_cons_self ..) hheaded
      obtain ⟨hitems, hobjects⟩ := objects_of_isTableList hlist
      obtain ⟨elements, helements, hread⟩ := ihitems []
        (htidy.values _ (List.mem_cons_self ..)).items_of_array hobjects hkey
      have hne : elements ≠ [] := by
        rintro rfl
        exact hitems (List.map_eq_nil_iff.1 ((reproducedItems_eq items).symm.trans hread.symm))
      rw [List.nil_append, withTables, withTables, if_pos rfl, if_neg hne] at helements
      obtain ⟨added, hadded, hrest⟩ := ihrest htidy.tail
        (hnew.tail.concat (List.nodup_cons.1 htidy.keys).1 (.tables elements))
      refine ⟨(key, .tables elements) :: added, ?_, ?_⟩
      · rw [sectionsOf, if_pos hlist, applyAll_append, helements, Option.bind_some, hadded,
          List.append_assoc]
        rfl
      · rw [fieldsOf, Item.toValue, hread, hrest, headedOf_of_headed hheaded, reproduced]
    | false =>
      have hplain : isHeaded (.array items) = false := hlist
      rw [sectionsOf_of_plain hplain, headedOf_of_plain hplain]
      exact ihrest htidy.tail hnew.tail
  case plain =>
    intro field rest hobject harray ihrest room entries htidy hnew
    have hplain := isHeaded_of_not hobject harray
    rw [sectionsOf_of_plain hplain, headedOf_of_plain hplain]
    exact ihrest htidy.tail hnew.tail
  case none =>
    intro key room entries done htidy hobjects hkey
    exact ⟨[], by rw [elementSections, List.append_nil]; rfl, rfl⟩
  case element =>
    intro key fields rest ihfields ihrest room entries done htidy hobjects hkey
    obtain ⟨helement, htidy⟩ := List.forall_mem_cons.1 htidy
    obtain ⟨less, rfl, htable⟩ := helement.table_of_object
    obtain ⟨below, hbelow, hread⟩ := ihfields htable htable.newTo_leavesOf
    obtain ⟨added, hadded, hrest⟩ := ihrest (done ++ [leavesOf fields ++ below]) htidy
      (List.forall_mem_cons.1 hobjects).2 hkey
    refine ⟨(leavesOf fields ++ below) :: added, ?_, ?_⟩
    · rw [elementSections, ← List.cons_append, applyAll_append,
        applyAll_element hkey done htable hbelow, Option.bind_some, hadded, List.append_assoc]
      rfl
    · rw [elementsOf, fieldsOf_append, fieldsOf_leavesOf, hread, hrest, reproducedItems, reproduced]
      rfl
  case other =>
    intro key v rest hobject ihrest room entries done htidy hobjects hkey
    obtain ⟨fields, hv⟩ := hobjects v (List.mem_cons_self ..)
    exact absurd hv (hobject fields)

/-! ## Reading documents -/

theorem leadingPairs_append (pairs : List Pair) (lines : List Line) :
    leadingPairs (pairs.map .pair ++ lines) =
      (pairs ++ (leadingPairs lines).1, (leadingPairs lines).2) := by
  induction pairs with
  | nil => rfl
  | cons p pairs ih => rw [List.map_cons, List.cons_append, leadingPairs, ih, List.cons_append]

/-- The lines from the first heading on. -/
def headingsOf : List Section → List Line
  | [] => []
  | s :: sections =>
    headingLine s.repeated s.path s.key :: (s.pairs.map .pair ++ (linesOf [] sections ++ [.blank]))

/-- In front of the first heading there are no pairs. -/
theorem leadingPairs_linesOf (sections : List Section) :
    leadingPairs (linesOf [] sections ++ [.blank]) = ([], headingsOf sections) := by
  cases sections with
  | nil => rfl
  | cons s sections =>
    have hlines : linesOf [] (s :: sections) ++ [.blank] =
        .blank :: headingLine s.repeated s.path s.key ::
          (s.pairs.map .pair ++ (linesOf [] sections ++ [.blank])) := by
      simp [linesOf, Section.lines]
    rw [hlines, leadingPairs, headingLine, headingsOf, headingLine]
    split <;> rfl

theorem length_le_linesOf (names : List String) (sections : List Section) :
    sections.length ≤ (linesOf names sections).length := by
  induction sections with
  | nil => exact Nat.le_refl 0
  | cons s sections ih =>
    have hlines : linesOf names (s :: sections) = s.lines names ++ linesOf names sections :=
      List.flatMap_cons
    rw [hlines, List.length_append, Section.lines, List.length_cons, List.length_cons]
    omega

theorem length_le_headingsOf (sections : List Section) :
    sections.length ≤ (headingsOf sections).length := by
  cases sections with
  | nil => exact Nat.zero_le _
  | cons s sections =>
    have hlines := length_le_linesOf [] sections
    simp only [headingsOf, List.length_cons, List.length_append]
    omega

/-- **The lines of sections add their tables.** -/
theorem addTables_headingsOf {sections : List Section} {fuel : Nat} (hfuel : sections.length < fuel)
    (entries : Entries) : addTables fuel (headingsOf sections) entries = applyAll sections entries := by
  induction sections generalizing fuel entries with
  | nil =>
    obtain ⟨fuel, rfl⟩ := Nat.exists_eq_add_one.2 hfuel
    rfl
  | cons s sections ih =>
    obtain ⟨fuel, rfl⟩ := Nat.exists_eq_add_one.2 (Nat.zero_lt_of_lt hfuel)
    have hrest : leadingPairs (s.pairs.map .pair ++ (linesOf [] sections ++ [.blank])) =
        (s.pairs, headingsOf sections) := by
      rw [leadingPairs_append, leadingPairs_linesOf, List.append_nil]
    have hmore := ih (Nat.lt_of_succ_lt_succ hfuel)
    rw [applyAll_cons, Section.apply, headingsOf, headingLine]
    split
    · rw [addTables, hrest]
      simp only [funext hmore]
    · rw [addTables, hrest]
      simp only [funext hmore]

/-- A text that renders lines does not begin with a mark of its encoding. -/
theorem withoutMark_of_renders {text : List Char} {lines : List Line} (h : Renders text lines) :
    withoutMark text = text := by
  rw [withoutMark.eq_def]
  split
  · next rest =>
    -- no line begins with the mark
    have hkey : ∀ fuel, key? (fuel + 1) ('\uFEFF' :: rest) = none := fun _ => rfl
    have hpair : ∀ fuel, pair? fuel depthLimit ('\uFEFF' :: rest) = none := by
      intro fuel
      cases fuel with
      | zero => rw [pair?]
      | succ fuel => rw [pair?, hkey]
    have hbody : lineBody? ('\uFEFF' :: rest) = none := by
      rw [lineBody?]
      exact congrArg (Option.map _) (hpair _)
    have hread := h.read 1 []
    rw [Nat.add_comm, lines?, List.append_nil, hbody] at hread
    cases hread
  · rfl

/-- The lines of a text that renders them, and the blank one behind its last end. -/
theorem lines?_of_renders {text : List Char} {lines : List Line} (h : Renders text lines) :
    lines? (text.length + 1) text = some (lines ++ [.blank]) := by
  obtain ⟨fuel, hfuel⟩ := Nat.exists_eq_add_of_le h.count
  have hread := h.read (fuel + 1) []
  rw [List.append_nil, show fuel + 1 + lines.length = text.length + 1 by omega] at hread
  exact hread

/-- **Every tidy document is read back as it was written.** -/
theorem parse_write {text : String} (htidy : Tidy (depthLimit + 1) v) (h : write v = some text) :
    parse text = some (reproduced v) := by
  cases v with
  | object fields =>
    obtain ⟨room, hroom, htable⟩ := htidy.table_of_object
    obtain rfl : room = depthLimit := by omega
    simp only [write, Option.bind_eq_bind, Option.bind_eq_some_iff, Option.pure_def,
      Option.some.injEq] at h
    obtain ⟨pairs, hpairs, below, hbelow, rfl⟩ := h
    have hroot : "" = prefixText [] := rfl
    have hsections := renders_sections.1 "" fields hroot
      ⟨nofun, Nat.le_of_eq (Nat.zero_add _)⟩ htable hbelow
    have hrenders := (renders_plainPairs htable hpairs).append hsections
    rw [← String.toList_append] at hrenders
    have hlines := lines?_of_renders hrenders
    obtain ⟨added, hadded, hread⟩ := applyAll_sections.1 fields htable htable.newTo_leavesOf
    rw [parse, withoutMark_of_renders hrenders]
    simp only [hlines, Option.bind_eq_bind, Option.bind_some, List.append_assoc,
      leadingPairs_append, leadingPairs_linesOf, List.append_nil, addAll_pairsOf htable,
      addTables_headingsOf (Nat.lt_succ_of_le (length_le_headingsOf _)), hadded]
    rw [fieldsOf_append, fieldsOf_leavesOf, hread, reproduced]
    rfl
  | _ => cases h

end Rollout.Toml
