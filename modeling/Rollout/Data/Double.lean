/-!
# Data/Double — the shortest decimal of a binary floating-point number

A double is given by its sixty-four bits. `Double.ofDecimal?` rounds a decimal to the nearest double
and refuses one beyond the largest; `Double.toText` writes the fewest digits that read back as the
same double, positional where the decimal point falls within a fixed window, else with an exponent.
-/

namespace Rollout.Double

def zero (negative : Bool) : UInt64 :=
  if negative then 0x8000000000000000 else 0

def infinity (negative : Bool) : UInt64 :=
  if negative then 0xFFF0000000000000 else 0x7FF0000000000000

/-- The double nearest to `coefficient * 10 ^ exponent`; none if it is beyond the largest. A number
that is far out of reach, by the length of its coefficient, is not computed with. -/
def ofDecimal? (negative : Bool) (coefficient : Nat) (exponent : Int) : Option UInt64 :=
  let order : Int := exponent + (toString coefficient).length
  if coefficient = 0 ∨ order < -400 then some (zero negative)
  else if 400 < order then none
  else
    let magnitude : Float :=
      if 0 ≤ exponent then Float.ofScientific coefficient false exponent.toNat
      else Float.ofScientific coefficient true exponent.natAbs
    if magnitude.isInf then none
    else some (if negative then (-magnitude).toBits else magnitude.toBits)

/-- The magnitude as `m * 2 ^ e`. -/
def decode (bits : UInt64) : Nat × Int :=
  let n : Nat := bits.toNat % (1 <<< 63)
  let e : Nat := n / (1 <<< 52)
  let f : Nat := n % (1 <<< 52)
  if e = 0 then (f, -1074) else (f + 1 <<< 52, (e : Int) - 1075)

/-- A power of ten. -/
def tenTo : Nat → Nat
  | 0 => 1
  | n + 1 => 10 * tenTo n

/-- A fraction of the exact comparisons below. -/
structure Ratio where
  num : Nat
  den : Nat

/-- The number `m * 2 ^ e` as a fraction. -/
def scaled (m : Nat) (e : Int) : Ratio :=
  if 0 ≤ e then ⟨m <<< e.toNat, 1⟩ else ⟨m, 1 <<< e.natAbs⟩

/-- Orders a decimal `d * 10 ^ p` against a fraction. -/
def compareDecimal (d : Nat) (p : Int) (r : Ratio) : Ordering :=
  if 0 ≤ p then compare (d * tenTo p.toNat * r.den) r.num
  else compare (d * r.den) (r.num * tenTo p.natAbs)

/-- The integer part of a fraction measured in units of `10 ^ p`. -/
def floorAt (r : Ratio) (p : Int) : Nat :=
  if 0 ≤ p then r.num / (r.den * tenTo p.toNat) else r.num * tenTo p.natAbs / r.den

/-- The decimals of the grid `10 ^ p` next to a double that read back as it, the nearer one first. -/
def candidate? (m : Nat) (e : Int) (p : Int) : Option Nat :=
  let value := scaled (4 * m) (e - 2)
  let upper := scaled (4 * m + 2) (e - 2)
  let lower := if m = 1 <<< 52 ∧ -1074 < e then scaled (4 * m - 1) (e - 2) else scaled (4 * m - 2) (e - 2)
  let closed := m % 2 = 0
  let inside (d : Nat) : Bool :=
    (compareDecimal d p upper == .lt || (closed && compareDecimal d p upper == .eq))
      && (compareDecimal d p lower == .gt || (closed && compareDecimal d p lower == .eq))
  let low := floorAt value p
  let high := low + 1
  let nearHigh := compareDecimal (2 * low + 1) p (Ratio.mk (2 * value.num) value.den) == .lt
  if inside low && inside high then
    some (if nearHigh then high else low)
  else if inside low then some low
  else if inside high then some high
  else none

/-- The shortest decimal `d * 10 ^ p`, searched from the coarsest grid down. -/
def shortest (m : Nat) (e : Int) : Nat → Int → Nat × Int
  | 0, p => (floorAt (scaled m e) p, p)
  | fuel + 1, p =>
    match candidate? m e p with
    | some d => if d = 0 then shortest m e fuel (p - 1) else (d, p)
    | none => shortest m e fuel (p - 1)

/-- Digits with trailing zeros moved into the exponent. -/
def trim (fuel : Nat) (d : Nat) (p : Int) : Nat × Int :=
  match fuel with
  | 0 => (d, p)
  | fuel + 1 => if d ≠ 0 ∧ d % 10 = 0 then trim fuel (d / 10) (p + 1) else (d, p)

/-- Writes `d * 10 ^ p`, positional when the point falls within sixteen digits of the first. -/
def writeDecimal (d : Nat) (p : Int) : String :=
  let digits := toString d
  let n : Int := digits.length
  let point := n + p
  if 0 ≤ p ∧ point ≤ 16 then
    digits ++ String.ofList (List.replicate p.toNat '0') ++ ".0"
  else if 0 < point ∧ point ≤ 16 then
    String.ofList (digits.toList.take point.toNat) ++ "." ++ String.ofList (digits.toList.drop point.toNat)
  else if -5 < point ∧ point ≤ 0 then
    "0." ++ String.ofList (List.replicate point.natAbs '0') ++ digits
  else
    let mantissa :=
      if digits.length = 1 then digits
      else String.ofList (digits.toList.take 1) ++ "." ++ String.ofList (digits.toList.drop 1)
    mantissa ++ "e" ++ toString (point - 1)

/-- The text of a finite double. -/
def toText (bits : UInt64) : String :=
  let sign := if bits.toNat < 1 <<< 63 then "" else "-"
  let (m, e) := decode bits
  if m = 0 then sign ++ "0.0"
  else
    let (d, p) := shortest m e 700 310
    let (d, p) := trim 400 d p
    sign ++ writeDecimal d p

end Rollout.Double
