import Rollout.Data.FileTree
import Rollout.DeployError
import Rollout.Json.Reader

/-!
# Artifact — compiled contracts and the libraries linked into them

An artifact holds the creation code of a contract as hex text in which libraries are placeholders.
`Artifact.link` writes the address of each library over its placeholders and decodes the result.
`ArtifactStore.load` finds an artifact by the name of its file.
-/

namespace Rollout

/-- Where a library's address belongs, in bytes of the code. -/
structure LinkReference where
  start : Nat
  length : Nat
  deriving DecidableEq

structure Artifact where
  contractName : String
  /-- Hex digits, with or without markers in front, and placeholders. -/
  bytecode : String
  /-- The libraries of each source file and their places, in the order of the names. -/
  references : List (String × List (String × List LinkReference)) := []
  deriving DecidableEq

namespace Artifact

/-- The libraries with their places, one after the other. -/
def placements (a : Artifact) : List (String × List LinkReference) :=
  a.references.flatMap Prod.snd

def requiredLibraries (a : Artifact) : List String :=
  a.placements.map Prod.fst

/-! ## Linking -/

/-- Writes `digits` over the code from `start` on. -/
def overwrite (code : List UInt8) (start : Nat) (digits : List UInt8) : List UInt8 :=
  code.take start ++ digits ++ code.drop (start + digits.length)

/-- The bytes of the text of an address. -/
def addressDigits (a : Address) : List UInt8 :=
  (Hex.encode a.toList).map fun c => UInt8.ofNat c.toNat

/-- Writes the address of one library over its placeholders. -/
def patchAll (library : String) (address : Address) :
    List LinkReference → List UInt8 → Except ArtifactFault (List UInt8)
  | [], code => .ok code
  | r :: rest, code =>
    if r.length ≠ 20 ∨ code.length < 2 * r.start + 2 * r.length then
      .error (.badReference library r.start)
    else patchAll library address rest (overwrite code (2 * r.start) (addressDigits address))

/-- The address of a library: the first one that is given for it. -/
def libraryAddress? (libraries : List (String × Address)) (library : String) : Option Address :=
  (libraries.find? fun entry => entry.1 == library).map Prod.snd

/-- Writes the addresses of all libraries, in the order of the placements. -/
def patchLibraries (libraries : List (String × Address)) :
    List (String × List LinkReference) → List UInt8 → Except ArtifactFault (List UInt8)
  | [], code => .ok code
  | (library, references) :: rest, code =>
    match libraryAddress? libraries library with
    | none => .error (.unlinkedLibrary library)
    | some address =>
      match patchAll library address references code with
      | .ok patched => patchLibraries libraries rest patched
      | .error fault => .error fault

/-- The digits of the bytecode, without markers. -/
def digits (a : Artifact) : List UInt8 :=
  Hex.stripMarkers (Hex.bytesOf a.bytecode)

/-- The creation code with all libraries in place. -/
def linkedCode (a : Artifact) (libraries : List (String × Address)) :
    Except ArtifactFault (List UInt8) :=
  match patchLibraries libraries a.placements a.digits with
  | .error fault => .error fault
  | .ok code =>
    match Hex.decode code with
    | .ok bytes => .ok bytes
    | .error fault => .error (.badHex fault)

def link (a : Artifact) (libraries : List (String × Address)) : Except LedgerError (List UInt8) :=
  (a.linkedCode libraries).mapError (LedgerError.artifact a.contractName)

/-! ## Documents -/

def referenceOfValue? (d : Dialect) (v : Value) : Option LinkReference :=
  match v.record? d ["start", "length"] with
  | some [start, length] => do
    let start ← Value.required? Value.word? start
    let length ← Value.required? Value.word? length
    pure { start, length }
  | _ => none

def ofValue? (d : Dialect) (v : Value) : Option Artifact :=
  match v.record? d ["contractName", "bytecode", "linkReferences"] with
  | some [contractName, bytecode, references] => do
    let contractName ← Value.required? Value.string? contractName
    let bytecode ← Value.required? Value.string? bytecode
    let references ← Value.default?
      (Value.dictionary? (Value.dictionary? (Value.list? (referenceOfValue? d)))) [] references
    pure { contractName, bytecode, references }
  | _ => none

end Artifact

/-! ## Stores -/

/-- A directory of artifacts. -/
structure ArtifactStore where
  /-- The path of the directory. -/
  root : String
  /-- What is at the path. -/
  place : Option FileTree.Location

namespace ArtifactStore

/-- The error of a store that is no directory. -/
def searchError (s : ArtifactStore) (fault : FileFault) : LedgerError :=
  .transport [s!"Failed to search artifacts in {s.root}", s!"Failed to list {s.root}", fault.message]

/-- The path and the text of the file that holds the artifact of a contract. -/
def locate (s : ArtifactStore) (contract : String) : Except LedgerError (String × String) :=
  match s.place with
  | none => .error (s.searchError .missing)
  | some { tree := .file _, .. } => .error (s.searchError .notDirectory)
  | some place =>
    let name := s!"{contract}.json"
    let wanted := if FilePath.isAbsolute name then none else place.find? (FilePath.components name)
    match wanted with
    | some (way, text) => .ok (FilePath.join (way.foldl FilePath.join s.root) name, text)
    | none => .error (.artifact contract (.notFound s.root))

def load (s : ArtifactStore) (contract : String) : Except LedgerError Artifact :=
  match s.locate contract with
  | .error error => .error error
  | .ok (path, text) =>
    match (Json.parse text).bind (Artifact.ofValue? .json) with
    | some artifact => .ok artifact
    | none => .error (.transport [s!"Failed to parse artifact {path}", "not the JSON of an artifact"])

end ArtifactStore

end Rollout
