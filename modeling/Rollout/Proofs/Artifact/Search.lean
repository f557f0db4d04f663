import Rollout.Artifact
import Rollout.Proofs.Data.Order

/-!
# Proofs/Artifact/Search — where an artifact is found

The search for an artifact goes down a tree depth first, with the entries of every directory in
order, and ends at the first directory that holds a file of the wanted name.  So it meets the
directories in the order of the ways to them: a directory before all below it, and of two that part
somewhere, the one with the smaller name there (`Precedes`).  It therefore finds something exactly
if there is something to find, and then the file in the least directory (`finds_find?`).

Of a store it follows that nothing but that one file has a part in what is loaded (`Searches`).
-/

namespace Rollout

namespace FileTree

variable {name key : String} {way way' : List String} {text : String} {tree : FileTree}
  {entries : List (String × FileTree)} {above : List FileTree}

/-! ## Trees as file systems have them -/

/-- The entries of every directory have different names. -/
inductive Distinct : FileTree → Prop
  | file (text : String) : Distinct (file text)
  | directory {entries : List (String × FileTree)} (names : (entries.map Prod.fst).Nodup)
      (below : ∀ entry ∈ entries, Distinct entry.2) : Distinct (directory entries)

/-- The entries of every directory are in the order of their names. -/
inductive Ordered : FileTree → Prop
  | file (text : String) : Ordered (file text)
  | directory {entries : List (String × FileTree)}
      (names : entries.Pairwise fun a b => a.1 < b.1)
      (below : ∀ entry ∈ entries, Ordered entry.2) : Ordered (directory entries)

/-- The names lead to a directory with a file of the given name and text. -/
def Holds (tree : FileTree) (name : String) (way : List String) (text : String) : Prop :=
  tree.lookup (way ++ [name]) = some (file text)

/-- Directories are ordered by the bytes of the names that lead to them, one name after the other,
and a directory comes before all below it. -/
def Precedes (way way' : List String) : Prop :=
  List.Lex Hex.ByteLt way way'

/-! ## Entries of a directory -/

theorem child?_eq_some_iff (h : (entries.map Prod.fst).Nodup) :
    child? key entries = some tree ↔ (key, tree) ∈ entries := by
  induction entries with
  | nil => simp [child?]
  | cons entry rest ih =>
    obtain ⟨hnew, hrest⟩ := List.nodup_cons.1 h
    rw [child?, List.mem_cons]
    split
    · next hkey =>
      subst hkey
      have hother : (entry.1, tree) ∉ rest := fun hmem => hnew (List.mem_map.2 ⟨_, hmem, rfl⟩)
      simp [hother, Prod.ext_iff, eq_comm]
    · next hkey =>
      rw [ih hrest]
      simp [Prod.ext_iff, Ne.symm hkey]

theorem nodup_of_pairwise (h : entries.Pairwise fun a b => a.1 < b.1) :
    (entries.map Prod.fst).Nodup := by
  refine List.pairwise_map.2 (h.imp fun {a b} hless hsame => ?_)
  rw [hsame] at hless
  exact String.lt_irrefl b.1 hless

theorem holds_nil_iff :
    (directory entries).Holds name [] text ↔ child? name entries = some (file text) := by
  rw [Holds, List.nil_append, lookup]
  cases child? name entries <;> simp [lookup]

/-- Below a directory, a file is held by one of its entries. -/
theorem holds_cons_iff (h : (entries.map Prod.fst).Nodup) :
    (directory entries).Holds name (key :: way) text ↔
      ∃ tree, (key, tree) ∈ entries ∧ tree.Holds name way text := by
  rw [Holds, List.cons_append, lookup]
  cases hchild : child? key entries with
  | none =>
    refine iff_of_false (by simp) fun ⟨tree, hmem, _⟩ => ?_
    cases hchild.symm.trans ((child?_eq_some_iff h).2 hmem)
  | some tree =>
    have hentry := (child?_eq_some_iff h).1 hchild
    refine ⟨fun hholds => ⟨tree, hentry, hholds⟩, fun ⟨other, hmem, hholds⟩ => ?_⟩
    obtain rfl := Option.some.inj (hchild.symm.trans ((child?_eq_some_iff h).2 hmem))
    exact hholds

/-! ## Sorting -/

theorem sortedEntries_eq_map (entries : List (String × FileTree)) :
    sortedEntries entries = entries.map fun entry => (entry.1, entry.2.sorted) := by
  induction entries with
  | nil => rfl
  | cons entry rest ih => rw [sortedEntries, ih, List.map_cons]

/-- The entries of a sorted directory are those of the directory, sorted themselves. -/
theorem sorted_directory (entries : List (String × FileTree)) :
    ∃ arranged, (directory entries).sorted = directory arranged ∧
      arranged.Perm (entries.map fun entry => (entry.1, entry.2.sorted)) ∧
      arranged.Pairwise fun a b => a.1 ≤ b.1 := by
  refine ⟨_, sorted.eq_2 entries, ?_, ?_⟩
  · rw [← sortedEntries_eq_map]
    exact List.mergeSort_perm ..
  · have htrans (a b c : String × FileTree) (hab : decide (a.1 ≤ b.1) = true)
        (hbc : decide (b.1 ≤ c.1) = true) : decide (a.1 ≤ c.1) = true :=
      decide_eq_true (String.le_trans (of_decide_eq_true hab) (of_decide_eq_true hbc))
    have htotal (a b : String × FileTree) :
        (decide (a.1 ≤ b.1) || decide (b.1 ≤ a.1)) = true := by
      simpa using String.le_total a.1 b.1
    exact (List.pairwise_mergeSort htrans htotal _).imp of_decide_eq_true

theorem names_of_perm {arranged : List (String × FileTree)}
    (hperm : arranged.Perm (entries.map fun entry => (entry.1, entry.2.sorted))) :
    (arranged.map Prod.fst).Perm (entries.map Prod.fst) := by
  have hnames := hperm.map Prod.fst
  rwa [List.map_map] at hnames

theorem ordered_sorted (h : Distinct tree) : Ordered tree.sorted := by
  induction h with
  | file text =>
    rw [sorted]
    exact .file text
  | @directory entries names below ih =>
    obtain ⟨arranged, hsorted, hperm, horder⟩ := sorted_directory entries
    have hnames := (names_of_perm hperm).nodup_iff.2 names
    have hdistinct : arranged.Pairwise fun a b => a.1 ≠ b.1 := List.pairwise_map.1 hnames
    rw [hsorted]
    refine .directory (horder.imp₂ (fun a b hle hne => ?_) hdistinct) fun entry hentry => ?_
    · exact String.not_le.1 fun hge => hne (String.le_antisymm hle hge)
    · obtain ⟨original, horiginal, rfl⟩ := List.mem_map.1 (hperm.mem_iff.1 hentry)
      exact ih original horiginal

/-- Sorting moves nothing to another place. -/
theorem lookup_sorted (h : Distinct tree) (way : List String) :
    tree.sorted.lookup way = (tree.lookup way).map sorted := by
  induction way generalizing tree with
  | nil => rfl
  | cons key way ih =>
    cases h with
    | file text =>
      rw [sorted]
      rfl
    | @directory entries names below =>
      obtain ⟨arranged, hsorted, hperm, horder⟩ := sorted_directory entries
      have hnames := (names_of_perm hperm).nodup_iff.2 names
      rw [hsorted, lookup, lookup]
      cases hchild : child? key entries with
      | none =>
        cases hchild' : child? key arranged with
        | none => rfl
        | some tree' =>
          have hmem := hperm.mem_iff.1 ((child?_eq_some_iff hnames).1 hchild')
          obtain ⟨⟨key', tree⟩, horiginal, heq⟩ := List.mem_map.1 hmem
          obtain ⟨rfl, rfl⟩ := Prod.mk.inj heq
          cases hchild.symm.trans ((child?_eq_some_iff names).2 horiginal)
      | some tree =>
        have horiginal := (child?_eq_some_iff names).1 hchild
        have hmem : (key, tree.sorted) ∈ arranged :=
          hperm.mem_iff.2 (List.mem_map.2 ⟨_, horiginal, rfl⟩)
        rw [(child?_eq_some_iff hnames).2 hmem]
        exact ih (below _ horiginal)

theorem holds_sorted_iff (h : Distinct tree) :
    tree.sorted.Holds name way text ↔ tree.Holds name way text := by
  rw [Holds, Holds, lookup_sorted h]
  cases tree.lookup (way ++ [name]) with
  | none => simp
  | some found => cases found <;> simp [sorted]

/-! ## The search -/

/-- Of the directories that hold a text, the names lead to the least. -/
structure Least (holds : List String → String → Prop) (way : List String) (text : String) :
    Prop where
  held : holds way text
  least : ∀ way' text', holds way' text' → way = way' ∨ Precedes way way'

/-- Of two directories, not each comes before the other. -/
theorem Precedes.asymm (h : Precedes way way') : ¬ Precedes way' way := by
  have : Std.Asymm Hex.ByteLt := ⟨fun _ _ => (List.Lex.asymm _).asymm _ _⟩
  exact (List.Lex.asymm _).asymm _ _ h

/-- There is one least directory at most, and it holds one file. -/
theorem Least.unique {text' : String} (h : Least (tree.Holds name) way text)
    (h' : Least (tree.Holds name) way' text') : way = way' ∧ text = text' := by
  have hway : way = way' := by
    rcases h.least way' text' h'.held with hsame | hbefore
    · exact hsame
    · exact ((h'.least way text h.held).resolve_right hbefore.asymm).symm
  subst hway
  exact ⟨rfl, FileTree.file.inj (Option.some.inj (h.held.symm.trans h'.held))⟩

/-- **What a search is to find**: nothing if nothing is held anywhere, and else what the least
directory holds. -/
inductive Finds (holds : List String → String → Prop) : Option (List String × String) → Prop
  | nowhere (hnone : ∀ way text, ¬ holds way text) : Finds holds none
  | found {way : List String} {text : String} (hleast : Least holds way text) :
      Finds holds (some (way, text))

theorem Finds.congr {holds holds' : List String → String → Prop}
    {result : Option (List String × String)} (h : Finds holds result)
    (hsame : ∀ way text, holds way text ↔ holds' way text) : Finds holds' result := by
  obtain rfl : holds = holds' := funext₂ fun way text => propext (hsame way text)
  exact h

/-- One of the entries holds the file. -/
def HoldsAmong (entries : List (String × FileTree)) (name : String) (way : List String)
    (text : String) : Prop :=
  ∃ key tree rest, (key, tree) ∈ entries ∧ way = key :: rest ∧ tree.Holds name rest text

/-- A name leads to the file that a directory has under it. -/
theorem fileAt?_singleton (hname : name ≠ "..") :
    Location.fileAt? { tree := directory entries, above } [name] =
      match child? name entries with
      | some (file text) => some text
      | _ => none := by
  have hfollow : Location.follow { tree := directory entries, above } [name] =
      (child? name entries).map (Location.enter { tree := directory entries, above } name) := by
    simp [Location.follow, Location.step, hname]
  have hplace : (Location.follow { tree := directory entries, above } [name]).map Location.tree =
      child? name entries := by
    rw [hfollow]
    cases child? name entries with
    | none => rfl
    | some tree =>
      refine congrArg some ?_
      rw [Location.enter]
      split <;> rfl
  exact congrArg (fun place : Option FileTree => match place with
    | some (file text) => some text
    | _ => none) hplace

theorem fileAt?_eq_some_iff (hname : name ≠ "..") :
    Location.fileAt? { tree := directory entries, above } [name] = some text ↔
      (directory entries).Holds name [] text := by
  rw [fileAt?_singleton hname, holds_nil_iff]
  split
  · simp_all
  · next hother => exact iff_of_false (by simp) fun h => hother _ h

/-- A directory without the file finds what its entries find. -/
theorem finds_of_among (hname : name ≠ "..") (hnames : (entries.map Prod.fst).Nodup)
    (hnone : Location.fileAt? { tree := directory entries, above } [name] = none)
    {result : Option (List String × String)} (h : Finds (HoldsAmong entries name) result) :
    Finds ((directory entries).Holds name) result := by
  refine h.congr fun way text => ?_
  cases way with
  | nil =>
    refine iff_of_false (fun ⟨_, _, _, _, heq, _⟩ => by cases heq) fun hholds => ?_
    cases hnone.symm.trans ((fileAt?_eq_some_iff hname).2 hholds)
  | cons key way =>
    rw [holds_cons_iff hnames]
    constructor
    · rintro ⟨_, tree, _, hmem, heq, hholds⟩
      cases heq
      exact ⟨tree, hmem, hholds⟩
    · rintro ⟨tree, hmem, hholds⟩
      exact ⟨key, tree, way, hmem, rfl, hholds⟩

/-- What the first entry holds comes before all that later entries hold. -/
theorem finds_cons_found {rest : List (String × FileTree)} (hless : ∀ entry ∈ rest, key < entry.1)
    (h : Finds (tree.Holds name) (some (way, text))) :
    Finds (HoldsAmong ((key, tree) :: rest) name) (some (key :: way, text)) := by
  cases h with
  | found hleast =>
    refine .found ⟨⟨key, tree, way, List.mem_cons_self, rfl, hleast.held⟩, ?_⟩
    rintro _ text' ⟨key', tree', way', hmem, rfl, hholds'⟩
    rcases List.mem_cons.1 hmem with heq | hrest
    · cases heq
      exact (hleast.least way' text' hholds').imp (congrArg (key :: ·)) List.Lex.cons
    · exact .inr (.rel (Hex.byteLt_of_lt (hless _ hrest)))

/-- A first entry that holds nothing can be left out. -/
theorem finds_cons_of_none {rest : List (String × FileTree)} (h : Finds (tree.Holds name) none)
    {result : Option (List String × String)} (hrest : Finds (HoldsAmong rest name) result) :
    Finds (HoldsAmong ((key, tree) :: rest) name) result := by
  cases h with
  | nowhere hnone =>
    refine hrest.congr fun way text => ⟨?_, ?_⟩
    · rintro ⟨key', tree', way', hmem, rfl, hholds⟩
      exact ⟨key', tree', way', List.mem_cons_of_mem _ hmem, rfl, hholds⟩
    · rintro ⟨key', tree', way', hmem, rfl, hholds⟩
      rcases List.mem_cons.1 hmem with heq | hmem
      · cases heq
        exact absurd hholds (hnone way' text)
      · exact ⟨key', tree', way', hmem, rfl, hholds⟩

/-- **The search of an ordered tree**, and that of the entries of a directory. -/
theorem finds_findIn? (hname : name ≠ "..") :
    (∀ above tree, Ordered tree → Finds (tree.Holds name) (findIn? [name] above tree)) ∧
    (∀ above entries, (entries.Pairwise fun a b => a.1 < b.1) →
      (∀ entry ∈ entries, Ordered entry.2) →
      Finds (HoldsAmong entries name) (findAmong? [name] above entries)) := by
  refine findIn?.mutual_induct [name] _ _ ?file ?here ?below ?nil ?first ?later
  case file =>
    intro above text _
    rw [findIn?]
    refine .nowhere fun way text' hholds => ?_
    cases way <;> cases hholds
  case here =>
    intro above entries text hfile _
    rw [findIn?, hfile]
    refine .found ⟨(fileAt?_eq_some_iff hname).1 hfile, fun way' text' _ => ?_⟩
    cases way' with
    | nil => exact .inl rfl
    | cons key way' => exact .inr .nil
  case below =>
    intro above entries hnone ih hordered
    cases hordered with
    | directory names below =>
      rw [findIn?, hnone]
      exact finds_of_among hname (nodup_of_pairwise names) hnone (ih names below)
  case nil =>
    intro above _ _
    rw [findAmong?]
    refine .nowhere fun way text ⟨_, _, _, hmem, _⟩ => ?_
    cases hmem
  case first =>
    intro above key tree rest way text hfound ih hnames hbelow
    have hless := (List.pairwise_cons.1 hnames).1
    have htree := ih (hbelow _ List.mem_cons_self)
    rw [hfound] at htree
    rw [findAmong?, hfound]
    exact finds_cons_found hless htree
  case later =>
    intro above key tree rest hnone ih ihrest hnames hbelow
    have htree := ih (hbelow _ List.mem_cons_self)
    rw [hnone] at htree
    rw [findAmong?, hnone]
    have hlater := ihrest (List.pairwise_cons.1 hnames).2 fun entry hentry =>
      hbelow _ (List.mem_cons_of_mem _ hentry)
    exact finds_cons_of_none htree hlater

/-- **The search of a tree.** -/
theorem finds_find? (l : Location) (h : Distinct l.tree) (hname : name ≠ "..") :
    Finds (l.tree.Holds name) (l.find? [name]) :=
  ((finds_findIn? hname).1 l.above l.tree.sorted (ordered_sorted h)).congr fun _ _ =>
    holds_sorted_iff h

end FileTree

/-! ## Names of files -/

namespace FilePath

theorem pieces_of_notMem {cs : List Char} (h : '/' ∉ cs) : pieces cs = [cs] := by
  induction cs with
  | nil => rfl
  | cons c cs ih =>
    rw [List.mem_cons, not_or] at h
    obtain ⟨hc, hcs⟩ := h
    rw [pieces, if_neg (Ne.symm hc), ih hcs]

theorem not_isAbsolute {path : String} (h : '/' ∉ path.toList) : isAbsolute path = false := by
  rw [isAbsolute, decide_eq_false_iff_not]
  exact fun hhead => h (List.mem_of_head? hhead)

/-- A name without a slash is a way of one step. -/
theorem components_of_notMem {name : String} (h : '/' ∉ name.toList) (hempty : name ≠ "")
    (hdot : name ≠ ".") : components name = [name] := by
  rw [components, not_isAbsolute h, pieces_of_notMem h]
  simp [String.ofList_toList, hempty, hdot]

end FilePath

/-! ## Stores -/

namespace ArtifactStore

open FileTree (Location Distinct Least)

/-- The name of the file that holds the artifact of a contract. -/
def fileName (contract : String) : String :=
  s!"{contract}.json"

/-- The path of a file of the store, in the directory that the names lead to. -/
def pathTo (s : ArtifactStore) (way : List String) (name : String) : String :=
  FilePath.join (way.foldl FilePath.join s.root) name

/-- What a file with the given path and text comes to. -/
def loaded (path text : String) : Except LedgerError Artifact :=
  match (Json.parse text).bind (Artifact.ofValue? .json) with
  | some artifact => .ok artifact
  | none => .error (.transport [s!"Failed to parse artifact {path}", "not the JSON of an artifact"])

/-- **What a store does with its tree.** -/
structure Searches (s : ArtifactStore) (tree : FileTree) (contract : String) : Prop where
  /-- A file is found exactly if some directory holds one with the name of the artifact, -/
  exists_iff : (∃ path text, s.locate contract = .ok (path, text)) ↔
    ∃ way text, tree.Holds (fileName contract) way text
  /-- and then it is the one in the least such directory. -/
  locate : ∀ path text, s.locate contract = .ok (path, text) ↔
    ∃ way, path = s.pathTo way (fileName contract) ∧ Least (tree.Holds (fileName contract)) way text
  /-- That file is what is loaded, whatever else there is in the tree. -/
  load : ∀ way text, Least (tree.Holds (fileName contract)) way text →
    s.load contract = loaded (s.pathTo way (fileName contract)) text
  missing : (∀ way text, ¬ tree.Holds (fileName contract) way text) →
    s.load contract = .error (.artifact contract (.notFound s.root))

section Searches

variable {s : ArtifactStore} {place : Location} {entries : List (String × FileTree)}
  {contract : String}

theorem toList_fileName (contract : String) :
    (fileName contract).toList = contract.toList ++ ['.', 'j', 's', 'o', 'n'] :=
  String.toList_append ..

/-- The name of a file leads to no other place. -/
theorem fileName_ne {other : String} (h : other.toList.getLast? ≠ some 'n') :
    fileName contract ≠ other := by
  rintro rfl
  refine h ?_
  rw [toList_fileName, List.getLast?_append]
  rfl

theorem notMem_fileName (h : '/' ∉ contract.toList) : '/' ∉ (fileName contract).toList := by
  rw [toList_fileName]
  simpa using h

/-- A store that is a directory is searched for the name of the file. -/
theorem locate_eq (hplace : s.place = some place) (htree : place.tree = .directory entries)
    (hcontract : '/' ∉ contract.toList) :
    s.locate contract =
      match place.find? [fileName contract] with
      | some (way, text) => .ok (s.pathTo way (fileName contract), text)
      | none => .error (.artifact contract (.notFound s.root)) := by
  have hname := notMem_fileName hcontract
  have hcomponents := FilePath.components_of_notMem hname (fileName_ne (by decide))
    (fileName_ne (by decide))
  have habsolute := FilePath.not_isAbsolute hname
  obtain ⟨tree, above⟩ := place
  obtain rfl : tree = .directory entries := htree
  rw [ArtifactStore.locate, hplace]
  change (match if FilePath.isAbsolute (fileName contract) then none else
    Location.find? _ (FilePath.components (fileName contract)) with
    | some (way, text) => _
    | none => _) = _
  rw [habsolute, hcomponents]
  rfl

/-- **A store finds the file in the least directory that holds it**, and loads that file. -/
theorem searches_store (hplace : s.place = some place) (htree : place.tree = .directory entries)
    (hdistinct : place.tree.Distinct) (hcontract : '/' ∉ contract.toList) :
    Searches s place.tree contract := by
  have hlocate := locate_eq hplace htree hcontract
  have hfile : fileName contract ≠ ".." := fileName_ne (by decide)
  have hfinds := FileTree.finds_find? place hdistinct hfile
  generalize place.find? [fileName contract] = result at hlocate hfinds
  cases hfinds with
  | nowhere hnone =>
    constructor
    case exists_iff =>
      refine iff_of_false (fun ⟨_, _, h⟩ => ?_) fun ⟨way, text, h⟩ => hnone way text h
      cases hlocate.symm.trans h
    case locate =>
      refine fun path text => iff_of_false (fun h => ?_) fun ⟨way, _, h⟩ => hnone way text h.held
      cases hlocate.symm.trans h
    case load => exact fun way text h => absurd h.held (hnone way text)
    case missing => exact fun _ => by rw [ArtifactStore.load, hlocate]
  | @found way text hfound =>
    constructor
    case exists_iff => exact iff_of_true ⟨_, _, hlocate⟩ ⟨way, text, hfound.held⟩
    case locate =>
      refine fun path text' => ⟨fun h => ?_, fun ⟨way', hpath, h⟩ => ?_⟩
      · cases hlocate.symm.trans h
        exact ⟨way, rfl, hfound⟩
      · obtain ⟨rfl, rfl⟩ := hfound.unique h
        rw [hlocate, hpath]
    case load =>
      intro way' text' h
      obtain ⟨rfl, rfl⟩ := hfound.unique h
      rw [ArtifactStore.load, hlocate]
      rfl
    case missing => exact fun hnone => absurd hfound.held (hnone way text)

/-- A tree with the file in two places, where the deeper one comes first, and a directory that only
has the name of the file. -/
def layered : FileTree :=
  .directory
    [("b", .directory [("Root.json", .file "second")]),
      ("Root.json", .directory []),
      ("a", .directory [("c", .directory [("Root.json", .file "first")])])]

theorem distinct_layered : layered.Distinct := by
  have hfile (name text : String) : (FileTree.directory [(name, .file text)]).Distinct :=
    .directory (by simp) (by simpa using .file text)
  have hempty : (FileTree.directory []).Distinct := .directory List.nodup_nil (by simp)
  have hdeep : (FileTree.directory [("c", .directory [("Root.json", .file "first")])]).Distinct :=
    .directory (by simp) (by simpa using hfile "Root.json" "first")
  exact .directory (by decide) (by simpa using ⟨hfile "Root.json" "second", hempty, hdeep⟩)

/-- A store of the tree. -/
def layeredStore : ArtifactStore :=
  ⟨"artifacts", some { tree := layered }⟩

theorem searches_store_layered :
    layered.Distinct ∧ '/' ∉ "Root".toList ∧ Searches layeredStore layered "Root" := by
  have hplace : layeredStore.place = some ⟨layered, []⟩ := rfl
  have hcontract : '/' ∉ "Root".toList := by decide
  exact ⟨distinct_layered, hcontract, searches_store hplace rfl distinct_layered hcontract⟩

end Searches

end ArtifactStore

end Rollout
