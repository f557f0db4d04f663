import Rollout.Data.Hex

/-!
# Data/Uint256 — unsigned numbers of 256 bits

A number is read from a numeral with an optional radix marker and optional digit separators
(`ofNumeral?`), and written either as minimal hex digits (`toHex`) or in decimal. Reading never
wraps: a numeral at or above `2 ^ 256` is refused.
-/

namespace Rollout

/-- One more than the largest number of 256 bits. -/
abbrev Uint256.size : Nat := 1 <<< 256

/-- A number of 256 bits. -/
structure Uint256 where
  toNat : Nat
  isLt : toNat < Uint256.size
  deriving DecidableEq

namespace Uint256

def ofNat? (n : Nat) : Option Uint256 :=
  if h : n < size then some ⟨n, h⟩ else none

theorem ofNat?_toNat (u : Uint256) : ofNat? u.toNat = some u :=
  dif_pos u.isLt

/-- The digits of a number above zero, none for zero. -/
def hexDigits (n : Nat) : List Char :=
  if n = 0 then [] else hexDigits (n / 16) ++ [Hex.digit (n % 16)]
  termination_by n

/-- Minimal hex digits behind the marker `0x`. -/
def toHex (u : Uint256) : String :=
  String.ofList ('0' :: 'x' :: if u.toNat = 0 then ['0'] else hexDigits u.toNat)

/-- The value of a digit in the given radix. -/
def digitValue? (radix : Nat) (c : Char) : Option Nat :=
  if c.toNat < 128 then
    (Hex.digitValue? (UInt8.ofNat c.toNat)).filter (· < radix)
  else none

/-- Reads digits from the most significant on; separators are skipped, and no digit at all is zero. -/
def readDigits (radix value : Nat) : List Char → Option Nat
  | [] => some value
  | '_' :: rest => readDigits radix value rest
  | c :: rest =>
    match digitValue? radix c with
    | some d => readDigits radix (radix * value + d) rest
    | none => none

/-- The value of a numeral, in the radix its marker names. -/
def numeralValue? : List Char → Option Nat
  | '0' :: 'x' :: digits => readDigits 16 0 digits
  | '0' :: 'X' :: digits => readDigits 16 0 digits
  | '0' :: 'o' :: digits => readDigits 8 0 digits
  | '0' :: 'O' :: digits => readDigits 8 0 digits
  | '0' :: 'b' :: digits => readDigits 2 0 digits
  | '0' :: 'B' :: digits => readDigits 2 0 digits
  | digits => readDigits 10 0 digits

/-- Reads a numeral whose value fits. -/
def ofNumeral? (text : String) : Option Uint256 :=
  (numeralValue? text.toList).bind ofNat?

/-- A number that fits a machine word is listed in decimal, a larger one in hex. -/
def describe (u : Uint256) : String :=
  if u.toNat < UInt64.size then toString u.toNat else u.toHex

end Uint256

end Rollout
