/-!
# Url/Punycode — labels beyond ASCII in ASCII

A label is encoded as its ASCII characters, a dash, and the places of its other characters as
variable-length integers whose digits adapt to what came before. `punycode` encodes and
`unpunycode?` decodes.
-/

namespace Rollout.Url

/-! ## Variable-length integers -/

/-- A digit of the variable-length integers. -/
def punycodeDigit (d : Nat) : Char :=
  if d < 26 then Char.ofNat (97 + d) else Char.ofNat (22 + d)

/-- The value of a digit. -/
def punycodeValue? (c : Char) : Option Nat :=
  if 'a' ≤ c ∧ c ≤ 'z' then some (c.toNat - 97)
  else if '0' ≤ c ∧ c ≤ '9' then some (c.toNat - 22)
  else none

/-- The digit at a place that is the last one of an integer if it is smaller than this. -/
def threshold (bias k : Nat) : Nat :=
  if k ≤ bias then 1 else if bias + 26 ≤ k then 26 else k - bias

/-- Brings a step width near to the differences seen so far. -/
def adaptLoop : Nat → Nat → Nat → Nat × Nat
  | 0, delta, k => (delta, k)
  | fuel + 1, delta, k => if 455 < delta then adaptLoop fuel (delta / 35) (k + 36) else (delta, k)

def adapt (delta points : Nat) (first : Bool) : Nat :=
  let delta := if first then delta / 700 else delta / 2
  let (delta, k) := adaptLoop 64 (delta + delta / points) 0
  k + 36 * delta / (delta + 38)

/-- The digits of a difference. -/
def punycodeInteger (bias : Nat) : Nat → Nat → Nat → List Char
  | 0, _, _ => []
  | fuel + 1, q, k =>
    let t := threshold bias k
    if q < t then [punycodeDigit q]
    else punycodeDigit (t + (q - t) % (36 - t)) :: punycodeInteger bias fuel ((q - t) / (36 - t)) (k + 36)

/-- The difference at the front of some digits, and the digits behind it. -/
def readInteger? (bias : Nat) : Nat → Nat → Nat → List Nat → Option (Nat × List Nat)
  | _, _, _, [] => none
  | weight, k, value, d :: rest =>
    let t := threshold bias k
    let value := value + d * weight
    if d < t then some (value, rest) else readInteger? bias (weight * (36 - t)) (k + 36) value rest

/-! ## Encoding -/

/-- State of the encoder: difference, step width, handled code points. -/
structure PunycodeState where
  delta : Nat
  bias : Nat
  handled : Nat
  output : List Char

/-- Handles the occurrences of one code point. -/
def punycodePoint (basic n : Nat) (s : PunycodeState) : List Nat → PunycodeState
  | [] => s
  | c :: rest =>
    if c < n then punycodePoint basic n { s with delta := s.delta + 1 } rest
    else if c = n then
      let digits := punycodeInteger s.bias 64 s.delta 36
      punycodePoint basic n
        { delta := 0, bias := adapt s.delta (s.handled + 1) (s.handled = basic),
          handled := s.handled + 1, output := s.output ++ digits } rest
    else punycodePoint basic n s rest

/-- Handles the code points from `n` on, in their order. -/
def punycodeLoop (points : List Nat) (basic : Nat) : Nat → Nat → PunycodeState → PunycodeState
  | 0, _, s => s
  | fuel + 1, n, s =>
    match (points.filter (n ≤ ·)).min? with
    | none => s
    | some m =>
      let s := { s with delta := s.delta + (m - n) * (s.handled + 1) }
      let s := punycodePoint basic m s points
      punycodeLoop points basic fuel (m + 1) { s with delta := s.delta + 1 }

def punycode (label : List Char) : List Char :=
  let basic := label.filter (·.toNat < 128)
  let start := if basic = [] then [] else basic ++ ['-']
  (punycodeLoop (label.map Char.toNat) basic.length (label.length + 1) 128
    ⟨0, 72, basic.length, start⟩).output

/-! ## Decoding -/

/-- Inserts the characters that the digits tell of. `n` is the last code point and `i` the place behind
the last insertion, zero before the first; `fuel` bounds the number of characters. -/
def insertPoints? : Nat → Nat → Nat → Nat → List Char → List Nat → Option (List Char)
  | _, _, _, _, output, [] => some output
  | 0, _, _, _, _, _ :: _ => none
  | fuel + 1, n, i, bias, output, digits => do
    let (difference, rest) ← readInteger? bias 1 36 0 digits
    let points := output.length + 1
    let n := n + (i + difference) / points
    let place := (i + difference) % points
    if n.isValidChar then
      insertPoints? fuel n (place + 1) (adapt difference points (i = 0))
        (output.take place ++ Char.ofNat n :: output.drop place) rest
    else none

/-- The label that an encoded one stands for. -/
def unpunycode? (encoded : List Char) : Option (List Char) := do
  let behind := (encoded.reverse.takeWhile (· ≠ '-')).reverse
  let basic := encoded.take (encoded.length - behind.length - 1)
  let digits ← (if encoded.contains '-' then behind else encoded).mapM punycodeValue?
  insertPoints? digits.length 128 0 72 (if encoded.contains '-' then basic else []) digits

end Rollout.Url
