/-!
# Data/Hex — bytes written as pairs of hex digits

`Hex.encode` writes every byte as two lower-case digits, high half first; `Hex.decode` reads digits
of either case and names the first thing wrong with a text: a digit without a partner, then the
leftmost byte that is no digit. Texts are read as bytes, so a fault has a byte position.
-/

namespace Rollout.Hex

/-- The digit of a value below sixteen. -/
def digit (n : Nat) : Char :=
  if n < 10 then Char.ofNat (48 + n) else Char.ofNat (87 + n)

/-- The value of the digit that a byte of text stands for. -/
def digitValue? (b : UInt8) : Option Nat :=
  let n := b.toNat
  if 48 ≤ n ∧ n ≤ 57 then some (n - 48)
  else if 97 ≤ n ∧ n ≤ 102 then some (n - 87)
  else if 65 ≤ n ∧ n ≤ 70 then some (n - 55)
  else none

/-- The value of a character as a digit. -/
def charValue? (c : Char) : Option Nat :=
  if c.toNat < 128 then digitValue? (UInt8.ofNat c.toNat) else none

/-- The number that some digits are written for, the most significant one first. -/
def number? (cs : List Char) : Option Nat :=
  (cs.mapM charValue?).map (List.foldl (fun n d => 16 * n + d) 0)

/-- The two digits of a byte. -/
def pair (b : UInt8) : List Char :=
  [digit (b.toNat / 16), digit (b.toNat % 16)]

def encode (bytes : List UInt8) : List Char :=
  bytes.flatMap pair

theorem length_encode : ∀ bytes : List UInt8, (encode bytes).length = 2 * bytes.length
  | [] => rfl
  | _ :: bytes => by
      have h := length_encode bytes
      simp only [encode, List.flatMap_cons, List.length_append, List.length_cons, pair,
        List.length_nil] at h ⊢
      omega

/-- What makes a text no sequence of digit pairs. -/
inductive Fault where
  | odd
  | invalid (byte : UInt8) (position : Nat)
  deriving DecidableEq, Repr

/-- Reads the pairs from `position` on; a last digit without a partner is a fault of its own. -/
def decodeFrom (position : Nat) : List UInt8 → Except Fault (List UInt8)
  | [] => .ok []
  | [_] => .error .odd
  | high :: low :: rest =>
    match digitValue? high, digitValue? low with
    | none, _ => .error (.invalid high position)
    | some _, none => .error (.invalid low (position + 1))
    | some h, some l =>
      match decodeFrom (position + 2) rest with
      | .ok bytes => .ok (UInt8.ofNat (16 * h + l) :: bytes)
      | .error fault => .error fault

/-- Reads a text of digit pairs; an odd length is reported before any other fault. -/
def decode (text : List UInt8) : Except Fault (List UInt8) :=
  if text.length % 2 = 1 then .error .odd else decodeFrom 0 text

/-- The bytes of a text. -/
def bytesOf (text : String) : List UInt8 :=
  text.toUTF8.toList

/-- A text without one leading marker `0x` or `0X`. -/
def stripMarker (text : List UInt8) : List UInt8 :=
  match text with
  | 48 :: 120 :: rest => rest
  | 48 :: 88 :: rest => rest
  | other => other

/-- A text without any of its leading markers `0x`. -/
def stripMarkers : List UInt8 → List UInt8
  | 48 :: 120 :: rest => stripMarkers rest
  | other => other

end Rollout.Hex
