import Rollout.Data.Keccak

/-!
# Naming/Path — names in the naming tree and the nodes they denote

A path is a text of labels between dots, the innermost label first; the empty path is the root. The
node of a path is folded from the outermost label inwards: the root is the zero digest, and the node
of a child is the digest of its parent's node followed by the digest of its label.
-/

namespace Rollout

/-- The identifier of a position in the naming tree. -/
abbrev Node := Digest

namespace Naming

/-- The node of the empty path. -/
def root : Node := FixedBytes.zero 32

/-- The character between two labels. -/
def delimiter : Char := '.'

def labelHash (label : String) : Digest :=
  Keccak.digest (Hex.bytesOf label)

/-- The node of the child of `parent` whose label has the digest `label`. -/
def subnode (parent : Node) (label : Digest) : Node :=
  Keccak.digest (parent.toList ++ label.toList)

/-- The node of the child of `parent` with the given label. -/
def child (parent : Node) (label : String) : Node :=
  subnode parent (labelHash label)

/-! ## Paths as lists of labels -/

/-- The labels of a text, innermost first; the empty text holds one empty label. -/
def labels (path : String) : List String :=
  (path.toList.splitOn delimiter).map String.ofList

/-- The node below `base` that is reached through the labels, the last label first. -/
def descend (base : Node) (labels : List String) : Node :=
  labels.foldr (fun label node => child node label) base

/-- The node of a path. -/
def node (path : String) : Node :=
  if path = "" then root else descend root (labels path)

/-- The path of `label` under `parent`. -/
def join (parent label : String) : String :=
  if parent = "" then label else String.ofList (label.toList ++ delimiter :: parent.toList)

end Naming

end Rollout
