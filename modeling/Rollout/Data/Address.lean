import Rollout.Data.Keccak

/-!
# Data/Address — the two spellings of an address, and addresses of new contracts

An address is written lower case in records and with a checksum of letter cases wherever a person
reads it (`Address.checksummed`). The contract that an account creates with its `nonce`-th creation
has an address fixed by the two (`Address.ofCreation`): the end of the digest of their list encoding.
-/

namespace Rollout.Address

/-- The upper-case form of a letter digit whose place in the digest holds eight or more. -/
def caseDigit (c : Char) (digestDigit : Nat) : Char :=
  if 8 ≤ digestDigit then c.toUpper else c

/-- The values of the digits of a byte string, two a byte. -/
def digitValues (bytes : List UInt8) : List Nat :=
  bytes.flatMap fun b => [b.toNat / 16, b.toNat % 16]

/-- Hex digits whose letters are upper case where the digest of the lower-case digits says so. -/
def checksummed (a : Address) : String :=
  let digits := Hex.encode a.toList
  let digest := Keccak.digest (digits.map fun c => UInt8.ofNat c.toNat)
  String.ofList ('0' :: 'x' :: List.zipWith caseDigit digits (digitValues digest.toList))

/-- The bytes of a number without leading zeros. -/
def minimalBytes (n : Nat) : List UInt8 :=
  if n = 0 then [] else minimalBytes (n / 256) ++ [UInt8.ofNat (n % 256)]
  termination_by n

/-- A number as an item of a list encoding: itself below 128, else a length and its bytes. -/
def encodeNat (n : Nat) : List UInt8 :=
  if n = 0 then [0x80]
  else if n < 128 then [UInt8.ofNat n]
  else UInt8.ofNat (0x80 + (minimalBytes n).length) :: minimalBytes n

/-- The list encoding of a creator and its nonce. -/
def encodeCreation (creator : Address) (nonce : Nat) : List UInt8 :=
  let items := 0x94 :: (creator.toList ++ encodeNat nonce)
  UInt8.ofNat (0xC0 + items.length) :: items

/-- The address of the contract that `creator` makes with the given nonce. -/
def ofCreation (creator : Address) (nonce : Nat) : Address :=
  (Keccak.digest (encodeCreation creator nonce)).suffix 20 (by decide)

/-- The account of local development nodes that signs unless another one is named. -/
def defaultDeployer : Address :=
  ⟨[0xf3, 0x9f, 0xd6, 0xe5, 0x1a, 0xad, 0x88, 0xf6, 0xf4, 0xce,
    0x6a, 0xb8, 0x82, 0x72, 0x79, 0xcf, 0xff, 0xb9, 0x22, 0x66], rfl⟩

/-- Why the text of an address does not read. -/
inductive Fault where
  | odd
  | wrongLength
  | invalid (byte : UInt8) (position : Nat)
  deriving DecidableEq, Repr

/-- Reads the digits behind one optional marker; the length is judged before the digits are. -/
def parse (text : String) : Except Fault Address :=
  let digits := Hex.stripMarker (Hex.bytesOf text)
  if digits.length % 2 = 1 then .error .odd
  else if digits.length ≠ 40 then .error .wrongLength
  else
    match Hex.decode digits with
    | .ok bytes =>
      match FixedBytes.ofList? 20 bytes with
      | some a => .ok a
      | none => .error .wrongLength
    | .error .odd => .error .odd
    | .error (.invalid byte position) => .error (.invalid byte position)

end Rollout.Address
