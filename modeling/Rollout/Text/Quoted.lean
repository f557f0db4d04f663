/-!
# Text/Quoted — a byte of text shown between quotes

A faulty byte is shown as the character of the same number. Characters that would not print, and
the quote and the backslash, are shown escaped.
-/

namespace Rollout.Text

/-- Hex digits of a number below 256 without leading zeros. -/
def shortHex (n : Nat) : String :=
  String.ofList (Nat.toDigits 16 n)

/-- The text of a byte's character between single quotes. -/
def quoteByte (b : UInt8) : String :=
  let n := b.toNat
  if n = 0 then "'\\0'"
  else if n = 9 then "'\\t'"
  else if n = 10 then "'\\n'"
  else if n = 13 then "'\\r'"
  else if n = 39 then "'\\''"
  else if n = 92 then "'\\\\'"
  else if n < 32 ∨ (127 ≤ n ∧ n < 161) ∨ n = 173 then
    "'\\u\x7b" ++ shortHex n ++ "\x7d'"
  else String.ofList ['\'', Char.ofNat n, '\'']

end Rollout.Text
