import Rollout.Data.Double
import Rollout.Data.Value

/-!
# Json/Writer — values as compact JSON texts

No blanks are written. Quotes, backslashes and control characters are escaped; every other character
stands for itself.
-/

namespace Rollout.Json

/-- A character inside a string. -/
def writeChar (c : Char) : List Char :=
  if c = '"' then ['\\', '"']
  else if c = '\\' then ['\\', '\\']
  else if c = '\x08' then ['\\', 'b']
  else if c = '\x0c' then ['\\', 'f']
  else if c = '\n' then ['\\', 'n']
  else if c = '\r' then ['\\', 'r']
  else if c = '\t' then ['\\', 't']
  else if c.toNat < 32 then
    ['\\', 'u', '0', '0', Hex.digit (c.toNat / 16), Hex.digit (c.toNat % 16)]
  else [c]

def writeString (s : String) : String :=
  String.ofList ('"' :: (s.toList.flatMap writeChar ++ ['"']))

mutual

def write : Value → String
  | .null => "null"
  | .bool b => if b then "true" else "false"
  | .unsigned n => toString n
  | .signed i => toString i
  | .real bits => Double.toText bits
  | .moment text => writeString text
  | .string s => writeString s
  | .array items => "[" ++ writeItems items ++ "]"
  | .object fields => "\x7b" ++ writeFields fields ++ "\x7d"

def writeItems : List Value → String
  | [] => ""
  | [v] => write v
  | v :: rest => write v ++ "," ++ writeItems rest

def writeFields : List (String × Value) → String
  | [] => ""
  | [(key, v)] => writeString key ++ ":" ++ write v
  | (key, v) :: rest => writeString key ++ ":" ++ write v ++ "," ++ writeFields rest

end

end Rollout.Json
