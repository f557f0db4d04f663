import Rollout.Toml.Scalar

/-!
# Toml/Reader — values from TOML texts

A text is a list of pairs and table headings, one to a line. `Toml.parse` reads the lines and adds
each table to the document, under the rules that keep a table from being defined twice: a heading may
open a table that only headings below it have mentioned so far, and dotted keys may extend only tables
that dotted keys made.
-/

namespace Rollout.Toml

/-! ## Tables under construction -/

/-- What stands under a key. -/
inductive Item where
  | leaf (v : Value)
  /-- A table. It is implicit as long as no heading opened it, and dotted if dotted keys made it. -/
  | table (implicit dotted : Bool) (entries : List (String × Item))
  /-- The tables of a repeated heading, each by its entries. -/
  | tables (elements : List (List (String × Item)))

/-- The entries of a table. -/
abbrev Entries := List (String × Item)

def child? (name : String) : Entries → Option Item
  | [] => none
  | (key, item) :: rest => if key = name then some item else child? name rest

/-- Puts an item in the place of the one that is there, or at the end. -/
def setChild (name : String) (item : Item) : Entries → Entries
  | [] => [(name, item)]
  | (key, old) :: rest => if key = name then (key, item) :: rest else (key, old) :: setChild name item rest

/-- Adds a pair to a table that holds no such key yet. -/
def addPair (key : String) (v : Value) (entries : Entries) : Option Entries :=
  match child? key entries with
  | some _ => none
  | none => some (entries ++ [(key, .leaf v)])

/-- Adds a pair below the tables that the names of a dotted key lead through. `dotted` tells whether
dotted keys made the table at hand. -/
def addDotted (key : String) (v : Value) : List String → Bool → Entries → Option Entries
  | [], dotted, entries => if dotted then addPair key v entries else none
  | name :: path, _, entries =>
    match child? name entries with
    | none => (addDotted key v path true []).map fun sub => entries ++ [(name, .table true true sub)]
    | some (.leaf _) => none
    | some (.table implicit dotted sub) =>
      if implicit then
        (addDotted key v path dotted sub).map fun sub => setChild name (.table implicit dotted sub) entries
      else none
    | some (.tables elements) =>
      match elements.getLast? with
      | some last =>
        (addDotted key v path false last).map fun last =>
          setChild name (.tables (elements.dropLast ++ [last])) entries
      | none => none

/-- A pair: the names before the last dot, the last name, and the value. -/
structure Pair where
  path : List String
  key : String
  value : Value

def Pair.addTo (p : Pair) (entries : Entries) : Option Entries :=
  match p.path with
  | [] => addPair p.key p.value entries
  | path => addDotted p.key p.value path false entries

def addAll (pairs : List Pair) (entries : Entries) : Option Entries :=
  pairs.foldlM (fun entries pair => pair.addTo entries) entries

/-- Defines the table of a heading with the given pairs. -/
def addTable (key : String) (pairs : List Pair) : List String → Entries → Option Entries
  | [], entries =>
    match child? key entries with
    | none => (addAll pairs []).map fun sub => entries ++ [(key, .table false false sub)]
    | some (.table true false sub) =>
      (addAll pairs sub).map fun sub => setChild key (.table false false sub) entries
    | some _ => none
  | name :: path, entries =>
    match child? name entries with
    | none => (addTable key pairs path []).map fun sub => entries ++ [(name, .table true false sub)]
    | some (.leaf _) => none
    | some (.table implicit dotted sub) =>
      (addTable key pairs path sub).map fun sub => setChild name (.table implicit dotted sub) entries
    | some (.tables elements) =>
      match elements.getLast? with
      | some last =>
        (addTable key pairs path last).map fun last =>
          setChild name (.tables (elements.dropLast ++ [last])) entries
      | none => none

/-- Adds one more table of a repeated heading with the given pairs. -/
def addElement (key : String) (pairs : List Pair) : List String → Entries → Option Entries
  | [], entries =>
    match child? key entries with
    | none => (addAll pairs []).map fun sub => entries ++ [(key, .tables [sub])]
    | some (.tables elements) =>
      (addAll pairs []).map fun sub => setChild key (.tables (elements ++ [sub])) entries
    | some _ => none
  | name :: path, entries =>
    match child? name entries with
    | none => (addElement key pairs path []).map fun sub => entries ++ [(name, .table true false sub)]
    | some (.leaf _) => none
    | some (.table implicit dotted sub) =>
      (addElement key pairs path sub).map fun sub => setChild name (.table implicit dotted sub) entries
    | some (.tables elements) =>
      match elements.getLast? with
      | some last =>
        (addElement key pairs path last).map fun last =>
          setChild name (.tables (elements.dropLast ++ [last])) entries
      | none => none

mutual

def Item.toValue : Item → Value
  | .leaf v => v
  | .table _ _ entries => .object (fieldsOf entries)
  | .tables elements => .array (elementsOf elements)

def fieldsOf : List (String × Item) → List (String × Value)
  | [] => []
  | (key, item) :: rest => (key, item.toValue) :: fieldsOf rest

def elementsOf : List (List (String × Item)) → List Value
  | [] => []
  | entries :: rest => .object (fieldsOf entries) :: elementsOf rest

end

/-! ## Values -/

/-- Arrays and inline tables nested this deep are refused, and so are keys of so many names. -/
def depthLimit : Nat := 80

/-- The rest of a line from a comment on. -/
def skipComment? : List Char → Option (List Char)
  | '#' :: rest => some (rest.dropWhile isPlain)
  | text => some text

/-- Blanks, comments and line ends between the items of an array. -/
def skipGap : Nat → List Char → List Char
  | 0, text => text
  | fuel + 1, text =>
    match skipBlanks text with
    | '#' :: rest =>
      match newline? (rest.dropWhile isPlain) with
      | some rest => skipGap fuel rest
      | none => '#' :: rest
    | rest =>
      match newline? rest with
      | some rest => skipGap fuel rest
      | none => rest

/-- The names of a key, split before the last one. -/
def splitKey? (names : List String) : Option (List String × String) :=
  if depthLimit < names.length then none
  else names.getLast?.map fun key => (names.dropLast, key)

mutual

/-- A value at the front of the text. `fuel` bounds the characters, `depth` the nesting left. -/
def value? (fuel depth : Nat) (text : List Char) : Option (Value × List Char) :=
  match fuel with
  | 0 => none
  | fuel + 1 =>
    match text with
    | '[' :: rest =>
      if depth ≤ 1 then none
      else (items? fuel (depth - 1) [] rest).map fun (items, rest) => (.array items, rest)
    | '{' :: rest =>
      if depth ≤ 1 then none
      else
        match skipBlanks rest with
        | '}' :: rest => some (.object [], rest)
        | rest =>
          match pairs? fuel (depth - 1) [] rest with
          | some (pairs, rest) => (addAll pairs []).map fun entries => (.object (fieldsOf entries), rest)
          | none => none
    | text => scalar? text

/-- The items of an array up to its closing bracket; `done` holds those read, last first. -/
def items? (fuel depth : Nat) (done : List Value) (text : List Char) :
    Option (List Value × List Char) :=
  match fuel with
  | 0 => none
  | fuel + 1 =>
    match skipGap text.length text with
    | ']' :: rest => some (done.reverse, rest)
    | rest =>
      match value? fuel depth rest with
      | none => none
      | some (v, rest) =>
        match skipGap rest.length rest with
        | ',' :: rest => items? fuel depth (v :: done) rest
        | ']' :: rest => some ((v :: done).reverse, rest)
        | _ => none

/-- The pairs of an inline table up to its closing brace; `done` holds those read, last first. -/
def pairs? (fuel depth : Nat) (done : List Pair) (text : List Char) :
    Option (List Pair × List Char) :=
  match fuel with
  | 0 => none
  | fuel + 1 =>
    match pair? fuel depth text with
    | none => none
    | some (pair, rest) =>
      match skipBlanks rest with
      | ',' :: rest => pairs? fuel depth (pair :: done) rest
      | '}' :: rest => some ((pair :: done).reverse, rest)
      | _ => none

/-- A key, the sign between, and a value. -/
def pair? (fuel depth : Nat) (text : List Char) : Option (Pair × List Char) :=
  match fuel with
  | 0 => none
  | fuel + 1 =>
    match key? (text.length + 1) text with
    | none => none
    | some (names, rest) =>
      match splitKey? names, rest with
      | some (path, key), '=' :: rest =>
        match value? fuel depth (skipBlanks rest) with
        | some (v, rest) => some (⟨path, key, v⟩, rest)
        | none => none
      | _, _ => none

end

/-! ## Lines -/

/-- One line of a text. -/
inductive Line where
  | blank
  | pair (p : Pair)
  | table (path : List String) (key : String)
  | element (path : List String) (key : String)

/-- A heading behind its opening brackets. -/
def heading? (text : List Char) : Option (Line × List Char) := do
  match text with
  | '[' :: rest =>
    let (names, rest) ← key? (rest.length + 1) rest
    let (path, key) ← splitKey? names
    match rest with
    | ']' :: ']' :: rest => some (.element path key, rest)
    | _ => none
  | rest =>
    let (names, rest) ← key? (rest.length + 1) rest
    let (path, key) ← splitKey? names
    match rest with
    | ']' :: rest => some (.table path key, rest)
    | _ => none

/-- A line without its end. -/
def lineBody? (text : List Char) : Option (Line × List Char) :=
  match skipBlanks text with
  | [] => some (.blank, [])
  | '#' :: rest => some (.blank, '#' :: rest)
  | '\n' :: rest => some (.blank, '\n' :: rest)
  | '\r' :: rest => some (.blank, '\r' :: rest)
  | '[' :: rest => heading? rest
  | rest => (pair? (2 * rest.length + 3) depthLimit rest).map fun (pair, rest) => (.pair pair, rest)

/-- All lines of a text. `fuel` bounds their number. -/
def lines? : Nat → List Char → Option (List Line)
  | 0, _ => none
  | fuel + 1, text => do
    let (line, rest) ← lineBody? text
    let rest ← skipComment? (skipBlanks rest)
    match rest with
    | [] => some [line]
    | rest =>
      let rest ← newline? rest
      let more ← lines? fuel rest
      some (line :: more)

/-- The pairs in front of the next heading, and the lines from it on. -/
def leadingPairs : List Line → List Pair × List Line
  | .blank :: rest => leadingPairs rest
  | .pair p :: rest =>
    let (pairs, rest) := leadingPairs rest
    (p :: pairs, rest)
  | lines => ([], lines)

/-- Adds the tables of all headings. `fuel` bounds the number of headings. -/
def addTables : Nat → List Line → Entries → Option Entries
  | 0, _, entries => some entries
  | fuel + 1, lines, entries =>
    match lines with
    | .table path key :: rest =>
      let (pairs, rest) := leadingPairs rest
      (addTable key pairs path entries).bind (addTables fuel rest)
    | .element path key :: rest =>
      let (pairs, rest) := leadingPairs rest
      (addElement key pairs path entries).bind (addTables fuel rest)
    | _ => some entries

/-- A text without the mark that may announce its encoding. -/
def withoutMark : List Char → List Char
  | '\uFEFF' :: rest => rest
  | text => text

/-- The document of a text. -/
def parse (text : String) : Option Value := do
  let chars := withoutMark text.toList
  let lines ← lines? (chars.length + 1) chars
  let (pairs, rest) := leadingPairs lines
  let root ← addAll pairs []
  let entries ← addTables (rest.length + 1) rest root
  some (.object (fieldsOf entries))

end Rollout.Toml
