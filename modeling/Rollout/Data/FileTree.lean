/-!
# Data/FileTree — directories as values

A tree is a file with its text or a directory of named trees. `FileTree.sorted` brings every
directory into the order of its names, code point by code point, which is also the order of their
bytes. `FileTree.Location.find?` looks for a file depth first: in a directory before the directories below
it, and in those one after the other.
-/

namespace Rollout

inductive FileTree where
  | file (text : String)
  | directory (entries : List (String × FileTree))
  deriving Inhabited

/-- Why the file system refuses an access. -/
inductive FileFault where
  | missing
  | isDirectory
  | notDirectory
  deriving DecidableEq

def FileFault.message : FileFault → String
  | missing => "No such file or directory (os error 2)"
  | isDirectory => "Is a directory (os error 21)"
  | notDirectory => "Not a directory (os error 20)"

/-! ## Paths -/

namespace FilePath

/-- Splits at every slash. -/
def pieces : List Char → List (List Char)
  | [] => [[]]
  | c :: rest =>
    if c = '/' then [] :: pieces rest
    else
      match pieces rest with
      | piece :: others => (c :: piece) :: others
      | [] => [[c]]

def isAbsolute (path : String) : Bool :=
  path.toList.head? = some '/'

/-- The names along a path; empty pieces and single dots lead nowhere. An absolute path begins at the
entry `/`, a name that no other entry can have. -/
def components (path : String) : List String :=
  (if isAbsolute path then ["/"] else []) ++
    ((pieces path.toList).map String.ofList).filter fun piece => piece ≠ "" && piece ≠ "."

/-- Whether the end of a path tells that it leads to a directory. -/
def namesDirectory (path : String) : Bool :=
  match (pieces path.toList).getLast? with
  | some piece => piece = [] || piece = ['.'] || piece = ['.', '.']
  | none => false

/-- The path of `name` below `directory`. -/
def join (directory name : String) : String :=
  if isAbsolute name ∨ directory = "" then name
  else if directory.toList.getLast? = some '/' then directory ++ name
  else directory ++ "/" ++ name

/-- The text before the last name of a path, without the slashes between. -/
def parent (path : String) : String :=
  let trimmed := path.toList.reverse.dropWhile (· = '/')
  let above := (trimmed.dropWhile (· ≠ '/')).dropWhile (· = '/')
  if above = [] ∧ isAbsolute path then "/" else String.ofList above.reverse

end FilePath

/-! ## Look-ups -/

namespace FileTree

def child? (name : String) : List (String × FileTree) → Option FileTree
  | [] => none
  | (key, tree) :: rest => if key = name then some tree else child? name rest

/-- The tree that is reached along the names. -/
def lookup : FileTree → List String → Option FileTree
  | tree, [] => some tree
  | file _, _ :: _ => none
  | directory entries, name :: rest =>
    match child? name entries with
    | some tree => lookup tree rest
    | none => none

/-- A tree and the directories around it, the nearest first. -/
structure Location where
  tree : FileTree
  above : List FileTree := []

namespace Location

/-- The place of an entry of a directory. Nothing is known to be around the entries `..` and `/`,
which stand for what is outside. -/
def enter (l : Location) (name : String) (tree : FileTree) : Location :=
  if name = ".." ∨ name = "/" then { tree } else { tree, above := l.tree :: l.above }

/-- One name further; `..` leads back to the directory above, if there is one. -/
def step (l : Location) (name : String) : Option Location :=
  match l.tree with
  | file _ => none
  | directory entries =>
    match if name = ".." then l.above else [] with
    | tree :: above => some { tree, above }
    | [] => (child? name entries).map (l.enter name)

/-- Where the names lead to. -/
def follow (l : Location) (names : List String) : Option Location :=
  names.foldlM step l

/-- The place of a path that starts here. A path that ends like that of a directory leads to no file. -/
def at? (l : Location) (path : String) : Option Location :=
  if path = "" then none
  else
    match l.follow (FilePath.components path) with
    | some place =>
      match place.tree with
      | file _ => if FilePath.namesDirectory path then none else some place
      | directory _ => some place
    | none => none

/-- The text of the file that the names lead to, if it is one. -/
def fileAt? (l : Location) (names : List String) : Option String :=
  match (l.follow names).map Location.tree with
  | some (file text) => some text
  | _ => none

end Location

def isDirectory : Option FileTree → Bool
  | some (directory _) => true
  | _ => false

/-- Whether a way has something below the tree that `..` can leave. -/
def canLeave (way : List String) : Bool :=
  match way with
  | name :: _ => name ≠ ".." && name ≠ "/"
  | [] => false

/-- The names without those that lead from a directory back up. `way` holds the names so far, last
first; above the tree itself is what its entry `..` holds. -/
def withoutUps (tree : FileTree) : List String → List String → Option (List String)
  | way, [] => some way.reverse
  | way, name :: rest =>
    if name = ".." ∧ canLeave way then
      if isDirectory (tree.lookup way.reverse) then withoutUps tree (way.drop 1) rest else none
    else withoutUps tree (name :: way) rest

/-- The names that a path leads along in this tree. -/
def resolve? (tree : FileTree) (path : String) : Option (List String) :=
  if path = "" then none else withoutUps tree [] (FilePath.components path)

/-- The tree at a path relative to this one. -/
def at? (tree : FileTree) (path : String) : Option FileTree :=
  (Location.at? { tree } path).map Location.tree

/-- The text of the file at a path. -/
def read (tree : FileTree) (path : String) : Except FileFault String :=
  match tree.at? path with
  | some (file text) => .ok text
  | some (directory _) => .error .isDirectory
  | none => .error .missing

/-- Replaces or adds an entry. -/
def setChild (name : String) (tree : FileTree) :
    List (String × FileTree) → List (String × FileTree)
  | [] => [(name, tree)]
  | (key, old) :: rest => if key = name then (key, tree) :: rest else (key, old) :: setChild name tree rest

/-- Writes a file into a directory that exists. -/
def writeAt (text : String) : List String → FileTree → Except FileFault FileTree
  | _, file _ => .error .notDirectory
  | [], directory _ => .error .isDirectory
  | [name], directory entries =>
    match child? name entries with
    | some (directory _) => .error .isDirectory
    | _ => .ok (directory (setChild name (file text) entries))
  | name :: rest, directory entries =>
    match child? name entries with
    | none => .error .missing
    | some below =>
      match writeAt text rest below with
      | .ok changed => .ok (directory (setChild name changed entries))
      | .error fault => .error fault

def write (tree : FileTree) (path text : String) : Except FileFault FileTree :=
  match resolve? tree path with
  | none => .error .missing
  | some names =>
    match writeAt text names tree with
    | .ok changed => if FilePath.namesDirectory path then .error .isDirectory else .ok changed
    | .error fault => .error fault

/-- Adds a file, or an empty directory where no text is given, with the directories above it. -/
def place (content : Option String) : List String → FileTree → FileTree
  | [], tree =>
    match content with
    | some text => file text
    | none =>
      match tree with
      | directory entries => directory entries
      | file _ => directory []
  | name :: rest, tree =>
    let entries :=
      match tree with
      | directory entries => entries
      | file _ => []
    directory (setChild name (place content rest ((child? name entries).getD (directory []))) entries)

/-! ## Search -/

mutual

/-- The tree with every directory in the order of its names. -/
def sorted : FileTree → FileTree
  | file text => file text
  | directory entries =>
    directory ((sortedEntries entries).mergeSort fun a b => decide (a.1 ≤ b.1))

def sortedEntries : List (String × FileTree) → List (String × FileTree)
  | [] => []
  | (name, tree) :: rest => (name, sorted tree) :: sortedEntries rest

end

mutual

/-- The names on the way to the first directory from which `wanted` leads to a file, and the text
found there. -/
def findIn? (wanted : List String) (above : List FileTree) : FileTree → Option (List String × String)
  | file _ => none
  | directory entries =>
    match Location.fileAt? { tree := directory entries, above } wanted with
    | some text => some ([], text)
    | none => findAmong? wanted (directory entries :: above) entries

def findAmong? (wanted : List String) (above : List FileTree) :
    List (String × FileTree) → Option (List String × String)
  | [] => none
  | (name, tree) :: rest =>
    match findIn? wanted above tree with
    | some (way, text) => some (name :: way, text)
    | none => findAmong? wanted above rest

end

/-- Searches the tree at a location in the order of names. -/
def Location.find? (l : Location) (wanted : List String) : Option (List String × String) :=
  findIn? wanted l.above l.tree.sorted

end FileTree

end Rollout
