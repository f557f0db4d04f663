import Rollout.Data.Hex

/-!
# Url/Text — percent-encoding

Characters that may not stand for themselves in a URL are written as the percent-encoded bytes of
their UTF-8 form.
-/

namespace Rollout.Url

/-- The two upper-case digits of a byte behind a percent sign. -/
def percentByte (b : UInt8) : List Char :=
  '%' :: (Hex.pair b).map Char.toUpper

/-- Writes the characters that are in a set, and all beyond ASCII, as percent-encoded bytes. -/
def percentEncode (inSet : Char → Bool) (cs : List Char) : List Char :=
  cs.flatMap fun c =>
    if c.toNat < 32 ∨ 126 < c.toNat ∨ inSet c then
      (Hex.bytesOf (String.ofList [c])).flatMap percentByte
    else [c]

/-- The bytes of a text with its percent-encoded bytes decoded. -/
def percentDecode : List Char → List UInt8
  | [] => []
  | '%' :: a :: b :: rest =>
    match Hex.charValue? a, Hex.charValue? b with
    | some a, some b => UInt8.ofNat (16 * a + b) :: percentDecode rest
    | _, _ => 37 :: percentDecode (a :: b :: rest)
  | c :: rest => Hex.bytesOf (String.ofList [c]) ++ percentDecode rest
  termination_by cs => cs.length

end Rollout.Url
