import Rollout.Data.FixedBytes

/-!
# Data/Keccak — the 256-bit Keccak digest

The sponge over the permutation of 1600 bits, at a rate of 136 bytes and with the padding that
begins with the byte one. The state is twenty-five lanes of sixty-four bits; the lane of column `x`
and row `y` has the index `x + 5 * y`, and a lane holds eight bytes, least significant first.
-/

namespace Rollout.Keccak

/-- The twenty-five lanes. -/
abbrev State := Vector UInt64 25

def lane (s : State) (i : Nat) : UInt64 :=
  s.toArray.getD i 0

def rotateLeft (w : UInt64) (k : Nat) : UInt64 :=
  if k = 0 then w else (w <<< UInt64.ofNat k) ||| (w >>> UInt64.ofNat (64 - k))

/-- How far each lane is rotated. -/
def offsets : Array Nat :=
  #[0, 1, 62, 28, 27, 36, 44, 6, 55, 20, 3, 10, 43, 25, 39, 41, 45, 15, 21, 8, 18, 2, 61, 56, 14]

/-- The constants that tell the twenty-four rounds apart. -/
def roundConstants : List UInt64 :=
  [0x0000000000000001, 0x0000000000008082, 0x800000000000808A, 0x8000000080008000,
   0x000000000000808B, 0x0000000080000001, 0x8000000080008081, 0x8000000000008009,
   0x000000000000008A, 0x0000000000000088, 0x0000000080008009, 0x000000008000000A,
   0x000000008000808B, 0x800000000000008B, 0x8000000000008089, 0x8000000000008003,
   0x8000000000008002, 0x8000000000000080, 0x000000000000800A, 0x800000008000000A,
   0x8000000080008081, 0x8000000000008080, 0x0000000080000001, 0x8000000080008008]

/-- Adds to every lane the parities of two neighbouring columns. -/
def theta (s : State) : State :=
  let parity : Vector UInt64 5 := Vector.ofFn fun x =>
    lane s x ^^^ lane s (x + 5) ^^^ lane s (x + 10) ^^^ lane s (x + 15) ^^^ lane s (x + 20)
  let column (x : Nat) : UInt64 := parity.toArray.getD (x % 5) 0
  let change : Vector UInt64 5 := Vector.ofFn fun x =>
    column (x + 4) ^^^ rotateLeft (column (x + 1)) 1
  Vector.ofFn fun i => lane s i ^^^ change.toArray.getD (i % 5) 0

/-- Rotates every lane and moves it to its new place. -/
def rhoPi (s : State) : State :=
  Vector.ofFn fun i =>
    let source := (i % 5 + 3 * (i / 5)) % 5 + 5 * (i % 5)
    rotateLeft (lane s source) (offsets.getD source 0)

/-- Combines every lane with the next two of its row. -/
def chi (s : State) : State :=
  Vector.ofFn fun i =>
    let row := 5 * (i.val / 5)
    lane s i ^^^ ((lane s (row + (i + 1) % 5) ^^^ 0xFFFFFFFFFFFFFFFF) &&& lane s (row + (i + 2) % 5))

def round (s : State) (constant : UInt64) : State :=
  let mixed := chi (rhoPi (theta s))
  mixed.set 0 (lane mixed 0 ^^^ constant)

def permute (s : State) : State :=
  roundConstants.foldl round s

/-! ## The sponge -/

/-- Bytes absorbed between two permutations. -/
def rate : Nat := 136

/-- Pads a message to a positive multiple of the rate. -/
def pad (message : List UInt8) : List UInt8 :=
  let missing := rate - message.length % rate
  if missing = 1 then message ++ [0x81]
  else message ++ 0x01 :: (List.replicate (missing - 2) 0 ++ [0x80])

/-- The number of eight bytes, least significant first. -/
def littleEndian (bytes : List UInt8) : UInt64 :=
  bytes.foldr (fun b w => (w <<< 8) ||| b.toUInt64) 0

/-- The eight bytes of a lane, least significant first. -/
def laneBytes (w : UInt64) : List UInt8 :=
  [w.toUInt8, (w >>> 8).toUInt8, (w >>> 16).toUInt8, (w >>> 24).toUInt8,
   (w >>> 32).toUInt8, (w >>> 40).toUInt8, (w >>> 48).toUInt8, (w >>> 56).toUInt8]

/-- Adds a block to the first seventeen lanes. -/
def addBlock (s : State) (block : List UInt8) : State :=
  Vector.ofFn fun i => lane s i ^^^ littleEndian ((block.drop (8 * i)).take 8)

/-- Absorbs a padded message block by block. -/
def absorb (s : State) (message : List UInt8) : State :=
  if message.length = 0 then s
  else absorb (permute (addBlock s (message.take rate))) (message.drop rate)
  termination_by message.length
  decreasing_by
    rw [List.length_drop]
    unfold rate
    omega

/-- The digest of a byte string. -/
def digest (message : List UInt8) : Digest :=
  let s := absorb (Vector.replicate 25 0) (pad message)
  ⟨laneBytes (lane s 0) ++ laneBytes (lane s 1) ++ laneBytes (lane s 2) ++ laneBytes (lane s 3), rfl⟩

end Rollout.Keccak
