import Rollout.Data.Double
import Rollout.Data.Value

/-!
# Json/Reader — values from JSON texts

`Json.parse` reads one value with blanks around it and nothing else. Every reader takes the rest of
the text and returns what it read with the new rest. A number without fraction and exponent is an
integer when it fits sixty-four bits, and else a double. Nesting is bounded.
-/

namespace Rollout.Json

/-- Arrays and objects nested this deep are refused. -/
def depthLimit : Nat := 128

def isBlank (c : Char) : Bool :=
  c = ' ' || c = '\n' || c = '\t' || c = '\r'

def skipBlanks (text : List Char) : List Char :=
  text.dropWhile isBlank

/-- Takes a fixed word off the front. -/
def word? (word : List Char) (text : List Char) : Option (List Char) :=
  if text.take word.length = word then some (text.drop word.length) else none

/-! ## Strings -/

/-- Four hex digits. -/
def hex4? : List Char → Option (Nat × List Char)
  | a :: b :: c :: d :: rest => (Hex.number? [a, b, c, d]).map (·, rest)
  | _ => none

/-- The character after a backslash and `u`; one beyond the first plane takes two escapes. -/
def unicode? (text : List Char) : Option (Char × List Char) := do
  let (unit, rest) ← hex4? text
  if 0xDC00 ≤ unit ∧ unit < 0xE000 then none
  else if 0xD800 ≤ unit ∧ unit < 0xDC00 then
    match rest with
    | '\\' :: 'u' :: rest =>
      let (low, rest) ← hex4? rest
      if 0xDC00 ≤ low ∧ low < 0xE000 then
        pure (Char.ofNat (0x10000 + (unit - 0xD800) * 0x400 + (low - 0xDC00)), rest)
      else none
    | _ => none
  else pure (Char.ofNat unit, rest)

/-- The character that a backslash and the given text stand for. -/
def escape? : List Char → Option (Char × List Char)
  | '"' :: rest => some ('"', rest)
  | '\\' :: rest => some ('\\', rest)
  | '/' :: rest => some ('/', rest)
  | 'b' :: rest => some ('\x08', rest)
  | 'f' :: rest => some ('\x0c', rest)
  | 'n' :: rest => some ('\n', rest)
  | 'r' :: rest => some ('\r', rest)
  | 't' :: rest => some ('\t', rest)
  | 'u' :: rest => unicode? rest
  | _ => none

/-- The rest of a string behind its opening quote; `done` holds the characters read, last first. -/
def string? : Nat → List Char → List Char → Option (String × List Char)
  | 0, _, _ => none
  | _ + 1, _, [] => none
  | fuel + 1, done, c :: rest =>
    if c = '"' then some (String.ofList done.reverse, rest)
    else if c = '\\' then
      match escape? rest with
      | some (c, rest) => string? fuel (c :: done) rest
      | none => none
    else if c.toNat < 32 then none
    else string? fuel (c :: done) rest

/-! ## Numbers -/

/-- The digits before the point; no number begins with a superfluous zero. -/
def intPart? (text : List Char) : Option (List Char × List Char) :=
  match text.takeWhile Char.isDigit with
  | [] => none
  | '0' :: _ :: _ => none
  | digits => some (digits, text.dropWhile Char.isDigit)

/-- The digits behind the point, none if there is no point. -/
def fraction? : List Char → Option (List Char × List Char)
  | '.' :: rest =>
    match rest.takeWhile Char.isDigit with
    | [] => none
    | digits => some (digits, rest.dropWhile Char.isDigit)
  | text => some ([], text)

/-- The exponent, if one is written. -/
def exponent? (text : List Char) : Option (Option Int × List Char) :=
  let digits (sign : Int) (rest : List Char) : Option (Option Int × List Char) :=
    match rest.takeWhile Char.isDigit with
    | [] => none
    | ds => some (some (sign * (Nat.ofDigitChars 10 ds 0 : Int)), rest.dropWhile Char.isDigit)
  match text with
  | c :: rest =>
    if c = 'e' ∨ c = 'E' then
      match rest with
      | '+' :: rest => digits 1 rest
      | '-' :: rest => digits (-1) rest
      | rest => digits 1 rest
    else some (none, text)
  | [] => some (none, [])

/-- The double of a decimal. -/
def real? (negative : Bool) (coefficient : Nat) (exponent : Int) : Option Value :=
  (Double.ofDecimal? negative coefficient exponent).map Value.real

def number? (text : List Char) : Option (Value × List Char) := do
  let (negative, text) :=
    match text with
    | '-' :: rest => (true, rest)
    | _ => (false, text)
  let (whole, text) ← intPart? text
  let (frac, text) ← fraction? text
  let (exponent, text) ← exponent? text
  let n := Nat.ofDigitChars 10 whole 0
  if frac = [] ∧ exponent = none then
    if negative = false ∧ n < UInt64.size then pure (.unsigned n, text)
    else if negative = true ∧ 0 < n ∧ n ≤ Value.signedBound then pure (.signed (-n), text)
    else pure (← real? negative n 0, text)
  else
    pure (← real? negative (Nat.ofDigitChars 10 frac n) (exponent.getD 0 - frac.length), text)

/-! ## Values -/

mutual

/-- A value at the front of the text. `fuel` bounds the characters, `depth` the nesting left. -/
def value? (fuel depth : Nat) (text : List Char) : Option (Value × List Char) :=
  match fuel with
  | 0 => none
  | fuel + 1 =>
    match skipBlanks text with
    | 'n' :: rest => (word? ['u', 'l', 'l'] rest).map fun rest => (.null, rest)
    | 't' :: rest => (word? ['r', 'u', 'e'] rest).map fun rest => (.bool true, rest)
    | 'f' :: rest => (word? ['a', 'l', 's', 'e'] rest).map fun rest => (.bool false, rest)
    | '"' :: rest => (string? (rest.length + 1) [] rest).map fun (s, rest) => (.string s, rest)
    | '[' :: rest =>
      if depth ≤ 1 then none
      else
        match skipBlanks rest with
        | ']' :: rest => some (.array [], rest)
        | _ => (items? fuel (depth - 1) [] rest).map fun (items, rest) => (.array items, rest)
    | '{' :: rest =>
      if depth ≤ 1 then none
      else
        match skipBlanks rest with
        | '}' :: rest => some (.object [], rest)
        | _ => (fields? fuel (depth - 1) [] rest).map fun (fields, rest) => (.object fields, rest)
    | text => number? text

/-- The items of an array up to its closing bracket; `done` holds those read, last first. -/
def items? (fuel depth : Nat) (done : List Value) (text : List Char) :
    Option (List Value × List Char) :=
  match fuel with
  | 0 => none
  | fuel + 1 =>
    match value? fuel depth text with
    | none => none
    | some (v, rest) =>
      match skipBlanks rest with
      | ',' :: rest => items? fuel depth (v :: done) rest
      | ']' :: rest => some ((v :: done).reverse, rest)
      | _ => none

/-- The fields of an object up to its closing brace. -/
def fields? (fuel depth : Nat) (done : List (String × Value)) (text : List Char) :
    Option (List (String × Value) × List Char) :=
  match fuel with
  | 0 => none
  | fuel + 1 =>
    match skipBlanks text with
    | '"' :: rest =>
      match string? (rest.length + 1) [] rest with
      | none => none
      | some (key, rest) =>
        match skipBlanks rest with
        | ':' :: rest =>
          match value? fuel depth rest with
          | none => none
          | some (v, rest) =>
            match skipBlanks rest with
            | ',' :: rest => fields? fuel depth ((key, v) :: done) rest
            | '}' :: rest => some (((key, v) :: done).reverse, rest)
            | _ => none
        | _ => none
    | _ => none

end

/-- The one value of a text. -/
def parse (text : String) : Option Value :=
  let chars := text.toList
  match value? (2 * chars.length + 2) depthLimit chars with
  | some (v, rest) => if skipBlanks rest = [] then some v else none
  | none => none

end Rollout.Json
