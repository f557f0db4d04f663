import Rollout.Config
import Rollout.Data.Assoc
import Rollout.Data.Double

/-!
# Config/Override — settings taken from the environment

A variable whose name begins with the right letters sets a field of a configuration; two underscores
in the name lead into a table. Names are not told apart by case, and those that no field has are
ignored. The value is read as a truth value, a number, a quoted text, a list in brackets or a table in
braces; a text that is none of these stands for itself, so every value can be read. All variables
together make one document, which is laid over that of the configuration.
-/

namespace Rollout.Override

/-! ## Values -/

/-- Blanks between the parts of a value. -/
def isBlank (c : Char) : Bool :=
  c = ' ' || c = '\t' || c = '\n' || c = '\x0c' || c = '\r'

/-- Blanks around a plain word: every white space there is. -/
def isSpace (c : Char) : Bool :=
  let n := c.toNat
  (9 ≤ n && n ≤ 13) || n = 0x20 || n = 0x85 || n = 0xA0 || n = 0x1680 || (0x2000 ≤ n && n ≤ 0x200A) ||
    n = 0x2028 || n = 0x2029 || n = 0x202F || n = 0x205F || n = 0x3000

def trim (text : List Char) : List Char :=
  ((text.dropWhile isSpace).reverse.dropWhile isSpace).reverse

/-- A plain word ends where a list or a table could go on. -/
def endsWord (c : Char) : Bool :=
  c = ',' || c = '\x7b' || c = '\x7d' || c = '[' || c = ']'

def isKeyChar (c : Char) : Bool :=
  c.isAlphanum || c = '_' || c = '-'

/-- The digits of a number without a sign. -/
def natural? (text : List Char) : Option Nat :=
  if text ≠ [] ∧ text.all Char.isDigit then some (Nat.ofDigitChars 10 text 0) else none

/-- A whole number that fits sixty-four bits. -/
def integer? (text : List Char) : Option Value :=
  match text with
  | '-' :: digits =>
    match natural? digits with
    | some n => if n ≤ Value.signedBound then some (.signed (-n)) else none
    | none => none
  | _ =>
    match natural? (if text.head? = some '+' then text.drop 1 else text) with
    | some n => if n < UInt64.size then some (.unsigned n) else none
    | none => none

/-- The exponent behind the digits of a number. -/
def exponent? : List Char → Option Int
  | [] => some 0
  | c :: rest =>
    if c = 'e' ∨ c = 'E' then
      match rest with
      | '-' :: digits => (natural? digits).map fun n => -(n : Int)
      | '+' :: digits => (natural? digits).map Int.ofNat
      | digits => (natural? digits).map Int.ofNat
    else none

/-- A number with a point; one beyond the largest is infinite. -/
def real? (text : List Char) : Option Value :=
  let negative := text.head? = some '-'
  let unsigned := if negative ∨ text.head? = some '+' then text.drop 1 else text
  let whole := unsigned.takeWhile Char.isDigit
  match unsigned.dropWhile Char.isDigit with
  | '.' :: rest =>
    let fraction := rest.takeWhile Char.isDigit
    if whole = [] ∧ fraction = [] then none
    else
      (exponent? (rest.dropWhile Char.isDigit)).map fun exponent =>
        .real ((Double.ofDecimal? negative (Nat.ofDigitChars 10 (whole ++ fraction) 0)
          (exponent - fraction.length)).getD (Double.infinity negative))
  | _ => none

/-- A word without quotes: a number if it is one, else a text. -/
def word (text : List Char) : Value :=
  let trimmed := trim text
  ((real? trimmed).or (integer? trimmed)).getD (.string (String.ofList trimmed))

/-- The characters up to the closing quote, with their escapes, and what is behind it. -/
def quoted? : List Char → Option (List Char × List Char)
  | [] => none
  | '"' :: rest => some ([], rest)
  | '\\' :: c :: rest => (quoted? rest).map fun (text, rest) => ('\\' :: c :: text, rest)
  | c :: rest => (quoted? rest).map fun (text, rest) => (c :: text, rest)

/-- The character of a number in hex digits. -/
def unicode? (digits : List Char) : Option Char :=
  (Hex.number? digits).bind fun n => if n.isValidChar then some (Char.ofNat n) else none

/-- The text that characters with escapes stand for. -/
def unescape? : List Char → Option (List Char)
  | [] => some []
  | '\\' :: 'u' :: a :: b :: c :: d :: rest => do
    let decoded ← unicode? [a, b, c, d]
    pure (decoded :: (← unescape? rest))
  | '\\' :: 'U' :: a :: b :: c :: d :: e :: f :: g :: h :: rest => do
    let decoded ← unicode? [a, b, c, d, e, f, g, h]
    pure (decoded :: (← unescape? rest))
  | '\\' :: c :: rest => do
    let decoded ←
      match c with
      | '"' => some '"'
      | '\\' => some '\\'
      | 'b' => some '\x08'
      | 'f' => some '\x0c'
      | 'n' => some '\n'
      | 'r' => some '\r'
      | 't' => some '\t'
      | _ => none
    pure (decoded :: (← unescape? rest))
  | c :: rest =>
    if c = '\t' ∨ (32 ≤ c.toNat ∧ c.toNat ≠ 127) then (unescape? rest).map (c :: ·) else none

/-- A text behind its opening quote. -/
def text? (input : List Char) : Option (String × List Char) := do
  let (body, rest) ← quoted? input
  pure (String.ofList (← unescape? body), rest)

/-- The key of a pair. -/
def key? : List Char → Option (String × List Char)
  | '"' :: rest => text? rest
  | input =>
    let name := input.takeWhile isKeyChar
    if name = [] then none else some (String.ofList name, input.dropWhile isKeyChar)

/-- A value that is no list and no table. -/
def plain? : List Char → Option (Value × List Char)
  | 't' :: 'r' :: 'u' :: 'e' :: rest => some (.bool true, rest)
  | 'f' :: 'a' :: 'l' :: 's' :: 'e' :: rest => some (.bool false, rest)
  | '"' :: rest => (text? rest).map fun (text, rest) => (.string text, rest)
  | '\'' :: c :: '\'' :: rest => some (.string (String.ofList [c]), rest)
  | '\'' :: _ => none
  | input => some (word (input.takeWhile (!endsWord ·)), input.dropWhile (!endsWord ·))

mutual

/-- One value with the blanks around it, and what is behind. `fuel` bounds the depth. -/
def value? : Nat → List Char → Option (Value × List Char)
  | 0, _ => none
  | fuel + 1, input => do
    let (value, rest) ←
      match input.dropWhile isBlank with
      | '[' :: rest => (items? fuel rest).map fun (items, rest) => (.array items, rest)
      | '\x7b' :: rest =>
        (pairs? fuel rest).map fun (pairs, rest) => (.object (Value.sortedEntries pairs), rest)
      | other => plain? other
    pure (value, rest.dropWhile isBlank)

/-- The items of a list up to its closing bracket; the last one may have a comma behind it. -/
def items? : Nat → List Char → Option (List Value × List Char)
  | 0, _ => none
  | _, ']' :: rest => some ([], rest)
  | fuel + 1, input => do
    let (value, rest) ← value? fuel input
    match rest with
    | ',' :: rest =>
      let (more, rest) ← items? fuel rest
      pure (value :: more, rest)
    | ']' :: rest => pure ([value], rest)
    | _ => none

/-- The pairs of a table up to its closing brace. -/
def pairs? : Nat → List Char → Option (List (String × Value) × List Char)
  | 0, _ => none
  | _, '\x7d' :: rest => some ([], rest)
  | fuel + 1, input => do
    let (key, rest) ← key? (input.dropWhile isBlank)
    match rest.dropWhile isBlank with
    | '=' :: rest =>
      let (value, rest) ← value? fuel rest
      match rest with
      | ',' :: rest =>
        let (more, rest) ← pairs? fuel rest
        pure ((key, value) :: more, rest)
      | '\x7d' :: rest => pure ([(key, value)], rest)
      | _ => none
    | _ => none

end

/-- The value of a variable. -/
def valueOf (text : String) : Value :=
  match value? (2 * text.length + 2) text.toList with
  | some (value, []) => value
  | _ => .string text

/-! ## Variables -/

/-- The letters that the names of variables begin with. -/
def marker : List Char := "ENSFORGE_".toList

def lowered (text : List Char) : List Char := text.map Char.toLower

/-- The parts of a name, between dots or pairs of underscores. -/
def parts : List Char → List (List Char)
  | [] => [[]]
  | '_' :: '_' :: rest => [] :: parts rest
  | '.' :: rest => [] :: parts rest
  | c :: rest =>
    match parts rest with
    | part :: others => (c :: part) :: others
    | [] => [[c]]

/-- The way to the field that a variable sets; none if it sets no field. -/
def way? (name : String) : Option (List String) :=
  let trimmed := lowered (trim name.toList)
  if trimmed.take marker.length = lowered marker then
    let names := parts (trimmed.drop marker.length)
    if names.contains [] then none else some (names.map String.ofList)
  else none

/-- A document with one value at the end of a way. -/
def nested (value : Value) : List String → Value
  | [] => value
  | name :: rest => .object [(name, nested value rest)]

mutual

/-- Lays the second document over the first: tables are laid over tables, and anything else replaces
what was there. -/
def merge (base : Value) : Value → Value
  | .object fields =>
    match base with
    | .object old => .object (mergeFields old fields)
    | _ => .object fields
  | other => other

def mergeFields (old : List (String × Value)) : List (String × Value) → List (String × Value)
  | [] => old
  | (key, value) :: rest =>
    let laid :=
      match Assoc.lookup key old with
      | some base => merge base value
      | none => value
    mergeFields (Assoc.put key laid old) rest

end

/-- The document that the variables make, later ones over earlier ones. -/
def document (environment : List (String × String)) : Value :=
  environment.foldl
    (fun base setting =>
      match way? setting.1 with
      | some way => merge base (nested (valueOf setting.2) way)
      | none => base)
    (.object [])

end Rollout.Override

namespace Rollout.Config

/-- The configuration with the settings of the environment; none if one of them does not fit. -/
def overridden? (c : Config) (environment : List (String × String)) : Option Config :=
  ofValue? .environment (Override.merge c.toValue (Override.document environment))

/-- Where the artifacts are, seen from where the path of the configuration file leads. -/
def relocate (c : Config) (path : String) : Config :=
  { c with artifactsDir := FilePath.join (FilePath.parent path) c.artifactsDir }

end Rollout.Config
