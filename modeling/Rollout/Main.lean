import Rollout.CommandLine

/-!
# Main — the program

The files and variables that a command line asks for are read, `CommandLine.run` does the work, and
what it changed is written. Nodes are not connected to: a run that needs one fails before it sends
anything.
-/

namespace Rollout.Main

/-- The variables that a command line or a configuration may take values from. -/
def settingNames : List String :=
  let nested (table : String) (names : List String) : List String := names.map fun n => table ++ "__" ++ n
  (["verbosity", "config", "simulate", "rpc_url", "tld"] ++ Config.fieldNames ++
      nested "network" Network.fieldNames ++ nested "confirmation" ConfirmationPolicy.fieldNames ++
      nested "propagation" PropagationPolicy.fieldNames).map
    fun name => String.ofList (Override.marker ++ name.toList.map Char.toUpper)

/-- The paths that a command looks at; a path may be that of a directory. -/
def pathsOf : CommandLine.Command → List String
  | .deploy config _ _ => [config, FilePath.join config Config.fileName]
  | .plan config => [config, FilePath.join config Config.fileName]
  | .init _ out _ => [FilePath.parent out, out, FilePath.join out Config.fileName]
  | .namehash _ => []

/-- Adds what is at the end of a path, and the directories that the path leads through. -/
def reveal (content : Option String) : List String → List String → FileTree → FileTree
  | way, [], tree => tree.place content way.reverse
  | way, name :: rest, tree =>
    if name = ".." ∧ FileTree.canLeave way then
      reveal content (way.drop 1) rest (tree.place none way.reverse)
    else reveal content (name :: way) rest tree

/-- The code of the fault that a directory was read as a file. -/
def directoryFault : UInt32 := 21

def readPath (tree : FileTree) (path : String) : IO FileTree := do
  try
    let text ← IO.FS.readFile path
    pure (reveal (some text) [] (FilePath.components path) tree)
  catch
    | .inappropriateType _ code _ =>
      pure (if code = directoryFault then reveal none [] (FilePath.components path) tree else tree)
    | _ => pure tree

def readVariable (name : String) : IO (Option (String × String)) := do
  pure ((← IO.getEnv name).map fun value => (name, value))

mutual

/-- The files of a tree that another one does not hold in the same way. -/
def changed (before : FileTree) (way : List String) : FileTree → List (String × String)
  | .file text =>
    match before.lookup way with
    | some (.file old) => if old = text then [] else [(way.foldl FilePath.join "", text)]
    | _ => [(way.foldl FilePath.join "", text)]
  | .directory entries => changedEntries before way entries

def changedEntries (before : FileTree) (way : List String) :
    List (String × FileTree) → List (String × String)
  | [] => []
  | (name, tree) :: rest => changed before (way ++ [name]) tree ++ changedEntries before way rest

end

/-- A node that no request gets to. -/
def node : Remote.Node where
  replies := []
  afterwards := .unreachable ["no connections are made"]

def start (arguments : List String) : IO UInt32 := do
  let environment ← settingNames.filterMapM readVariable
  let paths :=
    match CommandLine.Invocation.ofArguments environment arguments with
    | .ok invocation => pathsOf invocation.command
    | .error _ => []
  let files ← paths.foldlM readPath (.directory [])
  let outcome := CommandLine.run { files, environment, node } arguments
  for (path, text) in changed files [] outcome.files do
    IO.FS.writeFile path text
  IO.print outcome.output
  IO.eprint outcome.errors
  pure (UInt32.ofNat outcome.exit)

end Rollout.Main

def main (arguments : List String) : IO UInt32 :=
  Rollout.Main.start arguments
