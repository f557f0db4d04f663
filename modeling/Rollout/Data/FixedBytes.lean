import Rollout.Data.Hex

/-!
# Data/FixedBytes — byte strings of a known length

`FixedBytes n` is a list of exactly `n` bytes: hashes and nodes have thirty-two, addresses twenty,
interface identifiers four. Numbers enter through `bigEndian`, which keeps the last `n` bytes of a
number, most significant first.
-/

namespace Rollout

/-- A byte string of length `n`. -/
structure FixedBytes (n : Nat) where
  toList : List UInt8
  length_toList : toList.length = n
  deriving DecidableEq

/-- A Keccak digest, also the identifier of a transaction. -/
abbrev Digest := FixedBytes 32

/-- The address of an account or a contract. -/
abbrev Address := FixedBytes 20

/-- A four-byte interface identifier. -/
abbrev InterfaceId := FixedBytes 4

/-- The last `n` bytes of a number, most significant first. -/
def bigEndian : Nat → Nat → List UInt8
  | 0, _ => []
  | n + 1, value => UInt8.ofNat (value >>> (8 * n)) :: bigEndian n value

theorem length_bigEndian : ∀ n value : Nat, (bigEndian n value).length = n
  | 0, _ => rfl
  | n + 1, value => by rw [bigEndian, List.length_cons, length_bigEndian n value]

/-- The number that a byte string stands for, most significant byte first. -/
def ofBigEndian (bytes : List UInt8) : Nat :=
  bytes.foldl (fun value b => 256 * value + b.toNat) 0

namespace FixedBytes

variable {n : Nat}

@[ext] theorem ext {a b : FixedBytes n} (h : a.toList = b.toList) : a = b := by
  cases a
  cases b
  simp_all

/-- All bytes zero. -/
def zero (n : Nat) : FixedBytes n :=
  ⟨List.replicate n 0, List.length_replicate⟩

instance : Inhabited (FixedBytes n) := ⟨zero n⟩

/-- The last `n` bytes of a number. -/
def ofNat (n value : Nat) : FixedBytes n :=
  ⟨bigEndian n value, length_bigEndian n value⟩

def ofList? (n : Nat) (bytes : List UInt8) : Option (FixedBytes n) :=
  if h : bytes.length = n then some ⟨bytes, h⟩ else none

/-- The last `n` bytes of a longer string. -/
def suffix {m : Nat} (b : FixedBytes m) (n : Nat) (h : n ≤ m) : FixedBytes n :=
  ⟨b.toList.drop (m - n), by rw [List.length_drop, b.length_toList]; omega⟩

/-- The marker `0x` and two lower-case digits a byte. -/
def toHex (b : FixedBytes n) : String :=
  String.ofList ('0' :: 'x' :: Hex.encode b.toList)

instance : ToString (FixedBytes n) := ⟨toHex⟩

/-- Reads exactly `2 * n` digits of either case, with or without a marker. -/
def ofText? (n : Nat) (text : String) : Option (FixedBytes n) :=
  match Hex.decode (Hex.stripMarker (Hex.bytesOf text)) with
  | .ok bytes => ofList? n bytes
  | .error _ => none

end FixedBytes

end Rollout
