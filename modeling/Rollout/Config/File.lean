import Rollout.Config

/-!
# Config/File — configurations in a directory tree

A path designates a configuration file, or a directory that holds one under the usual name. An error
gives its causes, outermost first.
-/

namespace Rollout.Config

/-- The usual name of a configuration file. -/
def fileName : String := "Ensforge.toml"

/-- Why a configuration cannot be loaded. -/
inductive LoadError where
  | notFound (path : String)
  | unreadable (path : String) (fault : FileFault)
  | malformed
  deriving DecidableEq

def LoadError.causes : LoadError → List String
  | notFound path => [s!"Configuration file or directory not found: {path}"]
  | unreadable path fault => [s!"Failed to read config from {path}", fault.message]
  | malformed => ["Failed to parse config file as TOML", "TOML parse error"]

/-- Why a configuration cannot be saved. -/
inductive SaveError where
  | unwritable (path : String) (fault : FileFault)
  | numberTooLarge
  deriving DecidableEq

def SaveError.causes : SaveError → List String
  | unwritable path fault => [s!"Failed to write config to {path}", fault.message]
  | numberTooLarge => ["Failed to serialize deployment config to TOML", "out-of-range value for u64 type"]

/-- The file that a path designates. -/
def filePath (tree : FileTree) (path : String) : String :=
  if FileTree.isDirectory (tree.at? path) then FilePath.join path fileName else path

def load (tree : FileTree) (path : String) : Except LoadError Config :=
  match tree.at? path with
  | none => .error (.notFound path)
  | some _ =>
    match tree.read (filePath tree path) with
    | .error fault => .error (.unreadable (filePath tree path) fault)
    | .ok text =>
      match ofToml? text with
      | some config => .ok config
      | none => .error .malformed

def save (c : Config) (tree : FileTree) (path : String) : Except SaveError FileTree :=
  match c.toToml? with
  | none => .error .numberTooLarge
  | some text =>
    match tree.write path text with
    | .ok tree => .ok tree
    | .error fault => .error (.unwritable path fault)

end Rollout.Config
