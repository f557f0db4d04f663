import Rollout.Data.FixedBytes
import Rollout.Data.Uint256

/-!
# Data/Value — structured documents

A `Value` is what a JSON text, a TOML text or an environment variable holds, before it is read as
something of the domain. Integers keep how their format announces them: JSON has unsigned and
negative integers, TOML has signed ones only. Fields keep their order, and a repeated field is kept
too, because a record with a repeated field does not read. Where a document is taken as a dictionary
before it is read as a record, `Value.canonical` is what is left of it.

The readers below turn values into numbers, byte strings, lists and records. A record may be given
by its field names or as the sequence of its fields; `Value.record?` brings both to one list with an
entry per declared field.
-/

namespace Rollout

inductive Value where
  | null
  | bool (b : Bool)
  | unsigned (n : Nat)
  | signed (i : Int)
  | real (bits : UInt64)
  /-- A date, a time or both. -/
  | moment (text : String)
  | string (s : String)
  | array (items : List Value)
  | object (fields : List (String × Value))
  deriving Inhabited, BEq

/-- Where formats differ in what they let pass. -/
structure Dialect where
  /-- A sequence longer than the record it stands for is refused. -/
  exact : Bool
  /-- A name given as the only key of a table comes with the value null. -/
  nullPayload : Bool
  /-- A name may be given by its place among the names that can stand there. -/
  places : Bool
  deriving DecidableEq

namespace Dialect

def json : Dialect := ⟨true, true, false⟩

def toml : Dialect := ⟨false, false, false⟩

/-- The values of environment variables. -/
def environment : Dialect := ⟨false, true, true⟩

end Dialect

namespace Value

/-! ## Scalars -/

def bool? : Value → Option Bool
  | bool b => some b
  | _ => none

def string? : Value → Option String
  | string s => some s
  | _ => none

/-- One more than the largest number of sixty-four bits with a sign. -/
abbrev signedBound : Nat := 1 <<< 63

/-- A number that fits in sixty-four bits. -/
def word? : Value → Option Nat
  | unsigned n => if n < UInt64.size then some n else none
  | signed i => if 0 ≤ i ∧ i < UInt64.size then some i.toNat else none
  | _ => none

/-- A signed number of sixty-four bits. -/
def int64? : Value → Option Int
  | unsigned n => if n < signedBound then some n else none
  | signed i => if -signedBound ≤ i ∧ i < signedBound then some i else none
  | _ => none

def byte? (v : Value) : Option UInt8 :=
  (word? v).bind fun n => if n < 256 then some (UInt8.ofNat n) else none

/-- A number of 256 bits: an unsigned integer or the text of a numeral. -/
def uint256? : Value → Option Uint256
  | unsigned n => Uint256.ofNat? n
  | string s => Uint256.ofNumeral? s
  | _ => none

/-- Null stands for an absent value. -/
def optional? {α : Type} (read : Value → Option α) : Value → Option (Option α)
  | null => some none
  | v => (read v).map some

/-- One of the given names by its place. -/
def placed? (d : Dialect) (names : List String) : Value → Option String
  | unsigned n => if d.places then names[n]? else none
  | _ => none

/-- A name, given as text, as the only key of a table without content, or by its place. -/
def name? (d : Dialect) (names : List String) : Value → Option String
  | string s => some s
  | object [(s, payload)] =>
    match d.nullPayload, payload with
    | true, null => some s
    | false, object [] => some s
    | false, array [] => some s
    | _, _ => none
  | v => placed? d names v

/-! ## Dictionaries -/

/-- Adds an entry to entries in the order of their keys; a later value of a key replaces it. -/
def insertSorted {α : Type} (key : String) (value : α) : List (String × α) → List (String × α)
  | [] => [(key, value)]
  | (k, v) :: rest =>
    if key = k then (key, value) :: rest
    else if key < k then (key, value) :: (k, v) :: rest
    else (k, v) :: insertSorted key value rest

/-- The last values of the keys, in the order of the keys. -/
def sortedEntries {α : Type} (entries : List (String × α)) : List (String × α) :=
  entries.foldl (fun sorted entry => insertSorted entry.1 entry.2 sorted) []

/-- A dictionary in the order of its keys. -/
def dictionary? {α : Type} (read : Value → Option α) : Value → Option (List (String × α))
  | object fields =>
    (fields.mapM fun field => (read field.2).map fun v => (field.1, v)).map sortedEntries
  | _ => none

mutual

/-- The value with every object in the order of its keys, each key with its last value. -/
def canonical : Value → Value
  | array items => array (canonicalItems items)
  | object fields => object (sortedEntries (canonicalFields fields))
  | v => v

def canonicalItems : List Value → List Value
  | [] => []
  | v :: rest => canonical v :: canonicalItems rest

def canonicalFields : List (String × Value) → List (String × Value)
  | [] => []
  | (key, v) :: rest => (key, canonical v) :: canonicalFields rest

end

/-! ## Sequences -/

def list? {α : Type} (read : Value → Option α) : Value → Option (List α)
  | array items => items.mapM read
  | _ => none

/-- Exactly `n` bytes. One thing more that is no byte is overlooked. -/
def bytes? (d : Dialect) (n : Nat) (items : List Value) : Option (FixedBytes n) :=
  match (items.take n).mapM byte?, items.drop n with
  | some bytes, [] => FixedBytes.ofList? n bytes
  | some bytes, extra :: more =>
    if (byte? extra).isNone ∧ (more = [] ∨ d.exact = false) then FixedBytes.ofList? n bytes
    else none
  | none, _ => none

/-- A byte string of length `n`, as hex digits or as a sequence of numbers. -/
def fixedBytes? (d : Dialect) (n : Nat) : Value → Option (FixedBytes n)
  | string s => FixedBytes.ofText? n s
  | array items => bytes? d n items
  | _ => none

/-! ## Records -/

/-- The values of the fields with the given name. -/
def valuesOf (name : String) : List (String × Value) → List Value
  | [] => []
  | (key, v) :: rest => if key = name then v :: valuesOf name rest else valuesOf name rest

/-- The value of a field that may be absent but not repeated. -/
def field? (fields : List (String × Value)) (name : String) : Option (Option Value) :=
  match valuesOf name fields with
  | [] => some none
  | [v] => some (some v)
  | _ => none

/-- One entry per declared field, from named fields; fields that are not declared are ignored. -/
def named? (names : List String) (fields : List (String × Value)) : Option (List (Option Value)) :=
  names.mapM (field? fields)

/-- One entry per declared field, from the fields in order; the last ones may be missing. -/
def positional? (exact : Bool) (names : List String) (items : List Value) :
    Option (List (Option Value)) :=
  if exact = true ∧ names.length < items.length then none
  else some ((List.range names.length).map fun i => items[i]?)

/-- One entry per declared field of a record. -/
def record? (d : Dialect) (names : List String) : Value → Option (List (Option Value))
  | object fields => named? names fields
  | array items => positional? d.exact names items
  | moment _ => some (names.map fun _ => none)
  | _ => none

/-- A field that has to be present. -/
def required? {α : Type} (read : Value → Option α) (entry : Option Value) : Option α :=
  entry.bind read

/-- A field that takes a default when it is absent; null is not absence. -/
def default? {α : Type} (read : Value → Option α) (default : α) : Option Value → Option α
  | none => some default
  | some v => read v

end Value

end Rollout
