import Rollout.Data.Double
import Rollout.Data.Value

/-!
# Toml/Scalar — keys, strings, numbers and dates of TOML texts

Every reader takes the rest of the text and returns what it read with the new rest. Strings come in
four forms, with one or three quotes on each side and with or without escapes. Integers have sixty-four
bits and a sign. Dates and times are checked against the calendar and kept as text.
-/

namespace Rollout.Toml

/-- A reader of something at the front of a text. -/
abbrev Reader (α : Type) := List Char → Option (α × List Char)

def isBlank (c : Char) : Bool := c = ' ' || c = '\t'

def skipBlanks (text : List Char) : List Char := text.dropWhile isBlank

/-- Whether a character may stand in comments and literal strings. -/
def isPlain (c : Char) : Bool :=
  c = '\t' || (32 ≤ c.toNat && c.toNat ≠ 127)

/-- The end of a line, taken off the front. -/
def newline? : List Char → Option (List Char)
  | '\n' :: rest => some rest
  | '\r' :: '\n' :: rest => some rest
  | _ => none

/-! ## Strings -/

/-- The character whose number has exactly `count` hex digits. -/
def codePoint? (count : Nat) (text : List Char) : Option (Char × List Char) := do
  let digits := text.take count
  if digits.length ≠ count then none
  else
    let n ← Hex.number? digits
    if n < 0xD800 ∨ (0xDFFF < n ∧ n < 0x110000) then some (Char.ofNat n, text.drop count) else none

/-- The character that a backslash and the given text stand for. -/
def escape? : Reader Char
  | 'b' :: rest => some ('\x08', rest)
  | 't' :: rest => some ('\t', rest)
  | 'n' :: rest => some ('\n', rest)
  | 'f' :: rest => some ('\x0c', rest)
  | 'r' :: rest => some ('\r', rest)
  | '"' :: rest => some ('"', rest)
  | '\\' :: rest => some ('\\', rest)
  | 'u' :: rest => codePoint? 4 rest
  | 'U' :: rest => codePoint? 8 rest
  | _ => none

/-- The rest of a one-line string with escapes. -/
def basic? : Nat → List Char → Reader String
  | 0, _, _ => none
  | _ + 1, _, [] => none
  | fuel + 1, done, c :: rest =>
    if c = '"' then some (String.ofList done.reverse, rest)
    else if c = '\\' then
      match escape? rest with
      | some (c, rest) => basic? fuel (c :: done) rest
      | none => none
    else if isPlain c then basic? fuel (c :: done) rest
    else none

/-- The rest of a one-line string without escapes. -/
def literal? : List Char → Reader String
  | _, [] => none
  | done, c :: rest =>
    if c = '\'' then some (String.ofList done.reverse, rest)
    else if isPlain c then literal? (c :: done) rest
    else none

/-- Blanks and line ends behind a backslash at the end of a line. -/
def skipSpace : List Char → List Char
  | ' ' :: rest => skipSpace rest
  | '\t' :: rest => skipSpace rest
  | '\n' :: rest => skipSpace rest
  | '\r' :: '\n' :: rest => skipSpace rest
  | text => text

/-- What follows a backslash that ends its line. -/
def continuation? (text : List Char) : Option (List Char) :=
  (newline? (skipBlanks text)).map skipSpace

/-- Up to two quotes before the three that close a string belong to it. -/
def closing? (quote : Char) (text : List Char) : Option (Nat × List Char) :=
  let run := (text.takeWhile (· = quote)).length
  if run < 3 then none
  else if 5 < run then none
  else some (run - 3, text.drop run)

/-- The rest of a string of several lines, with or without escapes. -/
def multiline? (quote : Char) (escapes : Bool) : Nat → List Char → Reader String
  | 0, _, _ => none
  | _ + 1, _, [] => none
  | fuel + 1, done, c :: rest =>
    if c = quote then
      match closing? quote (c :: rest) with
      | some (inside, rest) =>
        some (String.ofList (done.reverse ++ List.replicate inside quote), rest)
      | none =>
        if ((c :: rest).takeWhile (· = quote)).length < 3 then
          multiline? quote escapes fuel (c :: done) rest
        else none
    else if escapes = true ∧ c = '\\' then
      match escape? rest with
      | some (c, rest) => multiline? quote escapes fuel (c :: done) rest
      | none =>
        match continuation? rest with
        | some rest => multiline? quote escapes fuel done rest
        | none => none
    else
      match newline? (c :: rest) with
      | some rest => multiline? quote escapes fuel ('\n' :: done) rest
      | none => if isPlain c then multiline? quote escapes fuel (c :: done) rest else none

/-- The rest of a string of several lines; a line end right behind the quotes does not count. -/
def multilineBody? (quote : Char) (escapes : Bool) (text : List Char) : Option (String × List Char) :=
  let text := (newline? text).getD text
  multiline? quote escapes (text.length + 1) [] text

def string? : Reader String
  | '"' :: '"' :: '"' :: rest => multilineBody? '"' true rest
  | '\'' :: '\'' :: '\'' :: rest => multilineBody? '\'' false rest
  | '"' :: rest => basic? (rest.length + 1) [] rest
  | '\'' :: rest => literal? [] rest
  | _ => none

/-! ## Keys -/

def isBareKey (c : Char) : Bool :=
  c.isDigit || ('a' ≤ c && c ≤ 'z') || ('A' ≤ c && c ≤ 'Z') || c = '_' || c = '-'

def simpleKey? : Reader String
  | '"' :: rest => basic? (rest.length + 1) [] rest
  | '\'' :: rest => literal? [] rest
  | text =>
    match text.takeWhile isBareKey with
    | [] => none
    | name => some (String.ofList name, text.dropWhile isBareKey)

/-- Keys with dots between them, and blanks around everything. `fuel` bounds their number. -/
def key? : Nat → Reader (List String)
  | 0, _ => none
  | fuel + 1, text =>
    match simpleKey? (skipBlanks text) with
    | none => none
    | some (name, rest) =>
      match skipBlanks rest with
      | '.' :: rest => (key? fuel rest).map fun (names, rest) => (name :: names, rest)
      | rest => some ([name], rest)

/-! ## Numbers -/

/-- Digits, and single underscores between two of them once a digit was read. -/
def digitsFrom (accept : Char → Bool) (started : Bool) : List Char → List Char × List Char
  | [] => ([], [])
  | [c] => if accept c then ([c], []) else ([], [c])
  | c :: d :: rest =>
    if accept c then
      let (ds, rest) := digitsFrom accept true (d :: rest)
      (c :: ds, rest)
    else if started = true ∧ c = '_' ∧ accept d = true then digitsFrom accept true (d :: rest)
    else ([], c :: d :: rest)

def digits (accept : Char → Bool) (text : List Char) : List Char × List Char :=
  digitsFrom accept false text

def numeral (radix : Nat) (ds : List Char) : Nat :=
  ds.foldl (fun n c => radix * n + (Hex.charValue? c).getD 0) 0

/-- An integer with a radix marker. -/
def marked? (radix : Nat) (accept : Char → Bool) (text : List Char) : Option (Value × List Char) :=
  match digits accept text with
  | ([], _) => none
  | (ds, rest) => if numeral radix ds < Value.signedBound then some (.signed (numeral radix ds), rest) else none

def isHexDigit (c : Char) : Bool := (Hex.charValue? c).isSome

def isOctalDigit (c : Char) : Bool := '0' ≤ c && c ≤ '7'

def isBinaryDigit (c : Char) : Bool := c = '0' || c = '1'

/-- The sign of a number, and whether it is negative. -/
def sign : List Char → Bool × List Char
  | '-' :: rest => (true, rest)
  | '+' :: rest => (false, rest)
  | text => (false, text)

/-- The digits behind a point. -/
def fraction? : Reader (List Char)
  | '.' :: rest =>
    match digits Char.isDigit rest with
    | ([], _) => none
    | (ds, rest) => some (ds, rest)
  | _ => none

/-- The exponent of a number. -/
def exponent? : Reader Int
  | c :: rest =>
    if c = 'e' ∨ c = 'E' then
      let (negative, rest) := sign rest
      match digits Char.isDigit rest with
      | ([], _) => none
      | (ds, rest) => some (if negative then -(numeral 10 ds) else numeral 10 ds, rest)
    else none
  | [] => none

def notANumber : UInt64 := 0x7FF8000000000000

/-- The double of a decimal; one beyond the largest is refused unless it is negative. -/
def real? (negative : Bool) (coefficient : Nat) (exponent : Int) : Option Value :=
  match Double.ofDecimal? negative coefficient exponent with
  | some bits => some (.real bits)
  | none => if negative then some (.real (Double.infinity true)) else none

/-- A decimal integer or a number with fraction or exponent. -/
def decimal? (text : List Char) : Option (Value × List Char) := do
  let (negative, text) := sign text
  match text with
  | 'i' :: 'n' :: 'f' :: rest => some (.real (Double.infinity negative), rest)
  | 'n' :: 'a' :: 'n' :: rest => some (.real notANumber, rest)
  | _ =>
    let (whole, rest) :=
      match text with
      | '0' :: rest => (['0'], rest)
      | text => digits Char.isDigit text
    if whole = [] then none
    else
      let (frac, afterFraction) := (fraction? rest).getD ([], rest)
      match exponent? afterFraction with
      | some (exponent, rest) =>
        pure (← real? negative (numeral 10 (whole ++ frac)) (exponent - frac.length), rest)
      | none =>
        if frac ≠ [] then
          pure (← real? negative (numeral 10 (whole ++ frac)) (-(frac.length : Int)), afterFraction)
        else
          let n := numeral 10 whole
          if negative then
            if n ≤ Value.signedBound then some (.signed (-(n : Int)), rest) else none
          else if n < Value.signedBound then some (.signed n, rest)
          else none

/-! ## Dates and times -/

/-- A number of exactly `count` digits within bounds. -/
def field? (count low high : Nat) (text : List Char) : Option (Nat × List Char) :=
  let ds := text.take count
  if ds.length = count ∧ ds.all Char.isDigit then
    let n := numeral 10 ds
    if low ≤ n ∧ n ≤ high then some (n, text.drop count) else none
  else none

/-- Takes a character off the front. -/
def char? (c : Char) : List Char → Option (List Char)
  | d :: rest => if c = d then some rest else none
  | [] => none

def isLeapYear (year : Nat) : Bool :=
  year % 4 = 0 && (year % 100 ≠ 0 || year % 400 = 0)

def daysIn (year month : Nat) : Nat :=
  if month = 2 then (if isLeapYear year then 29 else 28)
  else if month = 4 ∨ month = 6 ∨ month = 9 ∨ month = 11 then 30
  else 31

/-- The rest behind a date. -/
def date? (text : List Char) : Option (List Char) := do
  let (year, rest) ← field? 4 0 9999 text
  let rest ← char? '-' rest
  let (month, rest) ← field? 2 1 12 rest
  let rest ← char? '-' rest
  let (day, rest) ← field? 2 1 31 rest
  if day ≤ daysIn year month then some rest else none

/-- The rest behind a time of day. -/
def time? (text : List Char) : Option (List Char) := do
  let (_, rest) ← field? 2 0 23 text
  let rest ← char? ':' rest
  let (_, rest) ← field? 2 0 59 rest
  let rest ← char? ':' rest
  let (_, rest) ← field? 2 0 60 rest
  match rest with
  | '.' :: c :: more => if c.isDigit then some (more.dropWhile Char.isDigit) else some rest
  | _ => some rest

/-- The rest behind an offset, or the text itself where there is none. -/
def offset? (text : List Char) : Option (List Char) :=
  let hours (rest : List Char) : Option (List Char) := do
    let (_, rest) ← field? 2 0 23 rest
    let rest ← char? ':' rest
    let (_, rest) ← field? 2 0 59 rest
    some rest
  match text with
  | 'Z' :: rest => some rest
  | 'z' :: rest => some rest
  | '+' :: rest => hours rest
  | '-' :: rest => hours rest
  | _ => some text

/-- The rest behind the time that may follow a date. -/
def timeOfDate? (text : List Char) : Option (List Char) :=
  match text with
  | 'T' :: rest => (time? rest).bind offset?
  | 't' :: rest => (time? rest).bind offset?
  | ' ' :: rest =>
    match time? rest with
    | some rest => offset? rest
    | none => some text
  | _ => some text

/-- A date, a time, or both. -/
def moment? (text : List Char) : Option (Value × List Char) :=
  let rest? :=
    match date? text with
    | some rest => timeOfDate? rest
    | none => time? text
  rest?.map fun rest => (.moment (String.ofList (text.take (text.length - rest.length))), rest)

/-! ## Scalars -/

/-- A value that is neither an array nor a table. -/
def scalar? (text : List Char) : Option (Value × List Char) :=
  match text with
  | 't' :: 'r' :: 'u' :: 'e' :: rest => some (.bool true, rest)
  | 'f' :: 'a' :: 'l' :: 's' :: 'e' :: rest => some (.bool false, rest)
  | '0' :: 'x' :: rest => marked? 16 isHexDigit rest
  | '0' :: 'o' :: rest => marked? 8 isOctalDigit rest
  | '0' :: 'b' :: rest => marked? 2 isBinaryDigit rest
  | '"' :: _ => (string? text).map fun (s, rest) => (.string s, rest)
  | '\'' :: _ => (string? text).map fun (s, rest) => (.string s, rest)
  | _ =>
    match moment? text with
    | some found => some found
    | none => decimal? text

end Rollout.Toml
