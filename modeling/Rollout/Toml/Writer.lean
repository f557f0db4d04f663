import Rollout.Data.Value

/-!
# Toml/Writer — values as TOML texts

A table is written as its plain pairs, then its tables and its lists of tables, each under a heading
of its own with an empty line before it. A string takes the first of four forms in which it needs no
escapes; strings of several lines begin on the line behind their quotes. Integers have to fit
sixty-four bits with a sign, and null cannot be written.
-/

namespace Rollout.Toml

/-! ## Strings -/

/-- Whether a character can only be written as an escape. -/
def needsEscape (c : Char) : Bool :=
  (c.toNat < 32 && c ≠ '\t' && c ≠ '\n') || c.toNat = 127

/-- The longest run of a character. -/
def longestRun (quote : Char) (current longest : Nat) : List Char → Nat
  | [] => max current longest
  | c :: rest =>
    if c = quote then longestRun quote (current + 1) longest rest
    else longestRun quote 0 (max current longest) rest

/-- Four upper-case hex digits. -/
def unicodeDigits (n : Nat) : List Char :=
  [n / 4096 % 16, n / 256 % 16, n / 16 % 16, n % 16].map fun d => (Hex.digit d).toUpper

/-- Characters between quotes with escapes. So many quotes in a row stand for themselves as `allowed`
says; `run` counts those just written. -/
def escaped (multiline : Bool) (allowed run : Nat) : List Char → List Char
  | [] => []
  | c :: rest =>
    if c = '"' then
      if run < allowed then '"' :: escaped multiline allowed (run + 1) rest
      else '\\' :: '"' :: escaped multiline allowed 0 rest
    else
      let written :=
        if c = '\x08' then ['\\', 'b']
        else if c = '\t' then ['\\', 't']
        else if c = '\n' then (if multiline then ['\n'] else ['\\', 'n'])
        else if c = '\x0c' then ['\\', 'f']
        else if c = '\r' then ['\\', 'r']
        else if c = '\\' then ['\\', '\\']
        else if c.toNat < 32 ∨ c.toNat = 127 then '\\' :: 'u' :: unicodeDigits c.toNat
        else [c]
      written ++ escaped multiline allowed 0 rest

/-- The four forms of a string. -/
inductive StringForm where
  | basic
  | literal
  | multilineBasic
  | multilineLiteral
  deriving DecidableEq

/-- The first form in which a string needs no escapes; one that needs some has them between double
quotes. -/
def formOf (cs : List Char) : StringForm :=
  let escapes := cs.any needsEscape
  let newline := cs.contains '\n'
  let backslash := cs.contains '\\'
  let doubles := longestRun '"' 0 0 cs
  let singles := longestRun '\'' 0 0 cs
  if escapes = false ∧ newline = false ∧ backslash = false ∧ doubles = 0 then .basic
  else if escapes = false ∧ newline = false ∧ singles = 0 then .literal
  else if escapes = false ∧ backslash = false ∧ doubles ≤ 2 then .multilineBasic
  else if escapes = false ∧ singles ≤ 2 then .multilineLiteral
  else if newline then .multilineBasic
  else .basic

def writeString (s : String) : String :=
  let cs := s.toList
  let opening := if cs.contains '\n' then ['\n'] else []
  let triple (quote : Char) : List Char := List.replicate 3 quote
  String.ofList <|
    match formOf cs with
    | .basic => '"' :: (escaped false 0 0 cs ++ ['"'])
    | .literal => '\'' :: (cs ++ ['\''])
    | .multilineBasic => triple '"' ++ opening ++ escaped true 2 0 cs ++ triple '"'
    | .multilineLiteral => triple '\'' ++ opening ++ cs ++ triple '\''

/-! ## Tables -/

/-- A list that is written under headings. -/
def isTableList (items : List Value) : Bool :=
  items ≠ [] && items.all fun v => match v with | .object _ => true | _ => false

/-- A value behind the sign of its pair; none for what stands under headings or cannot be written. -/
def plain? : Value → Option String
  | .bool b => some (if b then "true" else "false")
  | .unsigned n => if n < Value.signedBound then some (toString n) else none
  | .signed i => some (toString i)
  | .string s => some (writeString s)
  | .array [] => some "[]"
  | _ => none

/-- Whether a field is written under a heading. -/
def isHeaded : Value → Bool
  | .object _ => true
  | .array items => isTableList items
  | _ => false

/-- The pairs of a table. -/
def plainPairs? : List (String × Value) → Option String
  | [] => some ""
  | (key, v) :: rest =>
    if isHeaded v then plainPairs? rest
    else do
      let written ← plain? v
      let more ← plainPairs? rest
      pure (key ++ " = " ++ written ++ "\n" ++ more)

mutual

/-- The tables of a table, below the given path. -/
def headed? (path : String) : List (String × Value) → Option String
  | [] => some ""
  | (key, .object fields) :: rest => do
    let name := path ++ key
    let pairs ← plainPairs? fields
    let below ← headed? (name ++ ".") fields
    let more ← headed? path rest
    pure ("\n[" ++ name ++ "]\n" ++ pairs ++ below ++ more)
  | (key, .array items) :: rest => do
    let elements ← if isTableList items then elements? (path ++ key) items else some ""
    let more ← headed? path rest
    pure (elements ++ more)
  | _ :: rest => headed? path rest

/-- The tables of a list of tables. -/
def elements? (name : String) : List Value → Option String
  | [] => some ""
  | .object fields :: rest => do
    let pairs ← plainPairs? fields
    let below ← headed? (name ++ ".") fields
    let more ← elements? name rest
    pure ("\n[[" ++ name ++ "]]\n" ++ pairs ++ below ++ more)
  | _ :: _ => none

end

/-- The text of a document. -/
def write : Value → Option String
  | .object fields => do
    let pairs ← plainPairs? fields
    let below ← headed? "" fields
    pure (pairs ++ below)
  | _ => none

end Rollout.Toml
