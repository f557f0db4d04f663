import Rollout.Url.Host

/-!
# Url — absolute URLs in the one form they are written in

`Url.parse` reads a URL, leniently about blanks around it and slashes in it, and keeps its normal form:
scheme and host in lower case, no port that the scheme implies, no dots as path segments, and every
character that may not stand for itself percent-encoded. Two URLs are equal if their normal forms are.
-/

namespace Rollout

structure Url where
  text : String
  deriving DecidableEq

namespace Url

/-! ## Sets of characters to encode -/

def inFragment (c : Char) : Bool := " \"<>`".toList.contains c

def inPath (c : Char) : Bool := inFragment c || "#?\x7b\x7d".toList.contains c

def inUserInfo (c : Char) : Bool := inPath c || "/:;=@[\\]^|".toList.contains c

def inQuery (special : Bool) (c : Char) : Bool :=
  " \"#<>".toList.contains c || (special && c = '\'')

/-! ## Parts -/

/-- The port that a scheme implies. Only the schemes that imply one have domains as hosts. -/
def defaultPort? (scheme : String) : Option Nat :=
  if scheme = "http" ∨ scheme = "ws" then some 80
  else if scheme = "https" ∨ scheme = "wss" then some 443
  else if scheme = "ftp" then some 21
  else none

def isSchemeChar (c : Char) : Bool := c.isAlphanum || c = '+' || c = '-' || c = '.'

/-- The scheme in lower case and what is behind its colon. -/
def scheme? (text : List Char) : Option (String × List Char) :=
  match text with
  | c :: _ =>
    if c.isAlpha then
      match text.dropWhile isSchemeChar with
      | ':' :: rest => some (String.ofList ((text.takeWhile isSchemeChar).map Char.toLower), rest)
      | _ => none
    else none
  | [] => none

/-- The text without blanks and control characters around it and without tabs and line ends in it. -/
def trimmed (text : List Char) : List Char :=
  let front := text.dropWhile fun c => c.toNat ≤ 32
  let both := (front.reverse.dropWhile fun c => c.toNat ≤ 32).reverse
  both.filter fun c => c ≠ '\t' && c ≠ '\n' && c ≠ '\r'

/-- What is before and behind the last occurrence of a character. -/
def splitLast (separator : Char) (text : List Char) : Option (List Char × List Char) :=
  if text.contains separator then
    let behind := (text.reverse.takeWhile (· ≠ separator)).reverse
    some (text.take (text.length - behind.length - 1), behind)
  else none

/-- The user, with a password behind a colon, as written before a host. -/
def userInfo (text : List Char) : List Char :=
  let name := text.takeWhile (· ≠ ':')
  let password := (text.dropWhile (· ≠ ':')).drop 1
  let written :=
    percentEncode inUserInfo name ++
      (if password = [] then [] else ':' :: percentEncode inUserInfo password)
  if written = [] then [] else written ++ ['@']

/-- The host and what is behind its colon; the colons of an IPv6 address do not count. -/
def splitPort : List Char → List Char × List Char
  | '[' :: rest =>
    ('[' :: (rest.takeWhile (· ≠ ']') ++ (rest.dropWhile (· ≠ ']')).take 1),
      (rest.dropWhile (· ≠ ']')).drop 1)
  | text => (text.takeWhile (· ≠ ':'), text.dropWhile (· ≠ ':'))

/-- The port as written behind a host: none at all if it is empty or implied. -/
def port? (implied : Option Nat) : List Char → Option (List Char)
  | [] => some []
  | ':' :: digits =>
    if digits = [] then some []
    else if digits.all Char.isDigit then
      let n := Nat.ofDigitChars 10 digits 0
      if n < 65536 then some (if implied = some n then [] else ':' :: (toString n).toList) else none
    else none
  | _ => none

/-- User, host and port as written. -/
def authority? (implied : Option Nat) (text : List Char) : Option (List Char) := do
  let (user, rest) :=
    match splitLast '@' text with
    | some (user, rest) => (userInfo user, rest)
    | none => ([], text)
  let (host, port) := splitPort rest
  let special := implied.isSome
  if host = [] ∧ (special ∨ user ≠ [] ∨ port ≠ []) then none
  else
    let written ← host? special host
    let port ← port? implied port
    some (user ++ written ++ port)

/-! ## Paths -/

/-- A segment with its encoded dots decoded, to tell whether it is a dot or two. -/
def plainDots : List Char → List Char
  | '%' :: '2' :: 'e' :: rest => '.' :: plainDots rest
  | '%' :: '2' :: 'E' :: rest => '.' :: plainDots rest
  | c :: rest => c :: plainDots rest
  | [] => []

/-- The segments that remain once dots are followed; `done` holds those kept, last first. -/
def resolveDots : List (List Char) → List (List Char) → List (List Char)
  | done, [] => done.reverse
  | done, segment :: rest =>
    if plainDots segment = ['.', '.'] then
      resolveDots (if rest = [] then [] :: done.drop 1 else done.drop 1) rest
    else if plainDots segment = ['.'] then
      resolveDots (if rest = [] then [] :: done else done) rest
    else resolveDots (segment :: done) rest

/-- A path from its first slash on. -/
def path (special : Bool) (text : List Char) : List Char :=
  let text := if special then text.map fun c => if c = '\\' then '/' else c else text
  match text with
  | '/' :: rest =>
    '/' :: ['/'].intercalate ((resolveDots [] (rest.splitOn '/')).map (percentEncode inPath))
  | rest =>
    if rest = [] ∧ special = false then []
    else '/' :: ['/'].intercalate ((resolveDots [] (rest.splitOn '/')).map (percentEncode inPath))

/-- Query and fragment with their marks. -/
def tail (special : Bool) (text : List Char) : List Char :=
  let beforeHash := text.takeWhile (· ≠ '#')
  let hash := text.dropWhile (· ≠ '#')
  let query :=
    match beforeHash with
    | '?' :: query => '?' :: percentEncode (inQuery special) query
    | _ => []
  let fragment :=
    match hash with
    | '#' :: fragment => '#' :: percentEncode inFragment fragment
    | _ => []
  query ++ fragment

def endsPath (c : Char) : Bool := c = '?' || c = '#'

def endsAuthority (special : Bool) (c : Char) : Bool :=
  c = '/' || endsPath c || (special && c = '\\')

/-! ## URLs -/

/-- What follows a scheme and two slashes. -/
def withAuthority? (scheme : String) (text : List Char) : Option (List Char) := do
  let implied := defaultPort? scheme
  let special := implied.isSome
  let authority ← authority? implied (text.takeWhile fun c => !endsAuthority special c)
  let rest := text.dropWhile fun c => !endsAuthority special c
  let hierarchy := path special (rest.takeWhile fun c => !endsPath c)
  some ('/' :: '/' :: (authority ++ hierarchy ++ tail special (rest.dropWhile fun c => !endsPath c)))

/-- What follows the scheme of a URL without a host. -/
def withoutAuthority (text : List Char) : List Char :=
  let hierarchy := text.takeWhile fun c => !endsPath c
  let rest := tail false (text.dropWhile fun c => !endsPath c)
  match hierarchy with
  | '/' :: _ => path false hierarchy ++ rest
  | opaquePath => percentEncode (fun _ => false) opaquePath ++ rest

/-- What follows the scheme of a file. -/
def fileBody? (text : List Char) : Option (List Char) :=
  match text.map fun c => if c = '\\' then '/' else c with
  | '/' :: '/' :: _ =>
    let rest := text.drop 2
    let host := rest.takeWhile fun c => !endsAuthority true c
    let rest := rest.dropWhile fun c => !endsAuthority true c
    let hierarchy := path true (rest.takeWhile fun c => !endsPath c)
    let written := if host = [] then some [] else (domain? host).map fun h => if h = "localhost".toList then [] else h
    written.map fun host =>
      '/' :: '/' :: (host ++ hierarchy ++ tail true (rest.dropWhile fun c => !endsPath c))
  | _ =>
    let hierarchy := path true (text.takeWhile fun c => !endsPath c)
    some ('/' :: '/' :: (hierarchy ++ tail true (text.dropWhile fun c => !endsPath c)))

def parse (text : String) : Option Url := do
  let (scheme, rest) ← scheme? (trimmed text.toList)
  let body ←
    if (defaultPort? scheme).isSome then
      withAuthority? scheme (rest.dropWhile fun c => c = '/' || c = '\\')
    else if scheme = "file" then fileBody? rest
    else
      match rest with
      | '/' :: '/' :: rest => withAuthority? scheme rest
      | rest => some (withoutAuthority rest)
  some ⟨scheme ++ ":" ++ String.ofList body⟩

end Url

end Rollout
