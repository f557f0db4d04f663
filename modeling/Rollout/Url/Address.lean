import Rollout.Url.Text

/-!
# Url/Address — IPv4 and IPv6 addresses as hosts

An IPv4 address may have fewer than four parts, each decimal, octal or hex, and is written as four
decimal numbers. An IPv6 address is written with its first longest run of zeros left out.
-/

namespace Rollout.Url

/-! ## IPv4 -/

/-- The number of a part of an address: decimal, octal or hex. -/
def ipv4Number? (part : List Char) : Option Nat :=
  let number (radix : Nat) (digits : List Char) : Option Nat :=
    digits.foldlM
      (fun n c => (Hex.charValue? c).bind fun d => if d < radix then some (radix * n + d) else none) 0
  match part with
  | [] => none
  | '0' :: 'x' :: digits => number 16 digits
  | '0' :: 'X' :: digits => number 16 digits
  | '0' :: c :: digits => number 8 (c :: digits)
  | digits => number 10 digits

/-- The parts of a host between dots, without an empty one at the end. -/
def ipv4Parts (host : List Char) : List (List Char) :=
  let parts := host.splitOn '.'
  if 1 < parts.length ∧ parts.getLast? = some [] then parts.dropLast else parts

/-- Whether a host has to be an IPv4 address. -/
def endsInNumber (host : List Char) : Bool :=
  match (ipv4Parts host).getLast? with
  | none => false
  | some [] => false
  | some part => part.all Char.isDigit || (part.take 2 == ['0', 'x'] || part.take 2 == ['0', 'X']) && (ipv4Number? part).isSome

/-- The number of an address whose last part fills what the others leave. -/
def ipv4Value? (numbers : List Nat) : Option Nat :=
  let count := numbers.length
  if count = 0 ∨ 4 < count then none
  else
    match numbers.getLast? with
    | none => none
    | some last =>
      if numbers.dropLast.all (· < 256) ∧ last < 1 <<< (8 * (5 - count)) then
        some ((numbers.dropLast.zipIdx.foldl (fun n (part, i) => n + part <<< (8 * (3 - i))) 0) + last)
      else none

def decimalByte (n : Nat) : List Char := (toString n).toList

def writeIpv4 (n : Nat) : List Char :=
  ['.'].intercalate ([n >>> 24 % 256, n >>> 16 % 256, n >>> 8 % 256, n % 256].map decimalByte)

def ipv4? (host : List Char) : Option (List Char) :=
  ((ipv4Parts host).mapM ipv4Number?).bind ipv4Value? |>.map writeIpv4

/-! ## IPv6 -/

/-- A group of at most four hex digits. -/
def group? (digits : List Char) : Option Nat :=
  if digits = [] ∨ 4 < digits.length then none
  else Hex.number? digits

/-- A decimal number of an address at the end, without superfluous zeros. -/
def embeddedByte? (digits : List Char) : Option Nat :=
  if digits = [] ∨ digits.all Char.isDigit = false ∨ (1 < digits.length ∧ digits.head? = some '0') then none
  else
    let n := Nat.ofDigitChars 10 digits 0
    if n < 256 then some n else none

/-- The groups of one side of an address; the last may be an IPv4 address. -/
def groups? : List (List Char) → Option (List Nat)
  | [] => some []
  | [piece] =>
    if piece.contains '.' then
      match (piece.splitOn '.').mapM embeddedByte? with
      | some [a, b, c, d] => some [256 * a + b, 256 * c + d]
      | _ => none
    else (group? piece).map ([·])
  | piece :: rest => do
    let g ← group? piece
    let more ← groups? rest
    pure (g :: more)

/-- The text before and behind the first pair of colons. -/
def splitGap? : List Char → Option (List Char × List Char)
  | ':' :: ':' :: rest => some ([], rest)
  | c :: rest => (splitGap? rest).map fun (before, behind) => (c :: before, behind)
  | [] => none

def side? (text : List Char) : Option (List Nat) :=
  if text = [] then some [] else groups? (text.splitOn ':')

/-- The eight groups of an address. -/
def ipv6Groups? (text : List Char) : Option (List Nat) :=
  match splitGap? text with
  | none => (side? text).filter (·.length = 8)
  | some (before, behind) =>
    if before.contains '.' then none
    else do
      let left ← side? before
      let right ← side? behind
      if left.length + right.length ≤ 7 then
        pure (left ++ List.replicate (8 - left.length - right.length) 0 ++ right)
      else none

/-- The length of the run of zeros at the front. -/
def zeroRun (groups : List Nat) : Nat := (groups.takeWhile (· = 0)).length

/-- The start and the length of the first longest run of at least two zeros. -/
def longestZeros (groups : List Nat) : Option (Nat × Nat) :=
  (List.range groups.length).foldl
    (fun best i =>
      let run := zeroRun (groups.drop i)
      match best with
      | some (_, longest) => if longest < run then some (i, run) else best
      | none => if 2 ≤ run then some (i, run) else none)
    none

def writeGroup (n : Nat) : List Char := Nat.toDigits 16 n

def writeIpv6 (groups : List Nat) : List Char :=
  let write (gs : List Nat) : List Char := [':'].intercalate (gs.map writeGroup)
  match longestZeros groups with
  | none => write groups
  | some (start, run) => write (groups.take start) ++ ':' :: ':' :: write (groups.drop (start + run))

end Rollout.Url
