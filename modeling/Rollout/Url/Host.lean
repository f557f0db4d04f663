import Rollout.Url.Address
import Rollout.Url.Letters
import Rollout.Url.Punycode

/-!
# Url/Host — the hosts of URLs

A host is a domain, an IPv4 address or an IPv6 address, and is brought to the one form it is written
in: domains have small letters and labels in ASCII, addresses are written out. A domain that ends in a
number has to be an address.
-/

namespace Rollout.Url

/-! ## Labels -/

/-- What the labels of a domain begin with that are in Punycode. -/
def punycodeMarker : List Char := "xn--".toList

/-- Whether a label that claims to be in Punycode is the code of some label beyond ASCII. -/
def isWellCoded (label : List Char) : Bool :=
  match unpunycode? (label.drop punycodeMarker.length) with
  | some decoded =>
    decoded.any (127 < ·.toNat) && !decoded.any isBarred && domainText decoded == decoded
  | none => false

/-- The ASCII form of a label. -/
def asciiLabel? (label : List Char) : Option (List Char) :=
  if label.any isBarred then none
  else if label.any (127 < ·.toNat) then some (punycodeMarker ++ punycode label)
  else if label.take punycodeMarker.length = punycodeMarker ∧ isWellCoded label = false then none
  else some label

/-! ## Hosts -/

/-- Characters that no domain contains. -/
def isForbidden (c : Char) : Bool :=
  c.toNat < 33 || c.toNat = 127 || "#/:<>?@[\\]^|%".toList.contains c

/-- A host of the schemes whose hosts are domains or addresses. -/
def domain? (text : List Char) : Option (List Char) := do
  let decoded ← String.fromUTF8? ⟨(percentDecode text).toArray⟩
  let labels ← ((domainText decoded.toList).splitOn '.').mapM asciiLabel?
  let ascii := ['.'].intercalate labels
  if ascii = [] ∨ ascii.any isForbidden then none
  else if endsInNumber ascii then ipv4? ascii
  else some ascii

/-- An IPv6 address between brackets. -/
def bracketed? (text : List Char) : Option (List Char) :=
  if text.getLast? = some ']' then
    (ipv6Groups? text.dropLast).map fun groups => '[' :: (writeIpv6 groups ++ [']'])
  else none

/-- Characters that no host contains, percent-encoded ones aside. -/
def isForbiddenOpaque (c : Char) : Bool := isForbidden c && c ≠ '%' && (c.toNat = 0 || 32 ≤ c.toNat && c.toNat ≠ 127)

/-- A host in its written form. `special` tells whether it has to be a domain or an address. -/
def host? (special : Bool) (text : List Char) : Option (List Char) :=
  match text with
  | '[' :: rest => bracketed? rest
  | _ =>
    if special then domain? text
    else if text.any isForbiddenOpaque then none
    else some (percentEncode (fun _ => false) text)

end Rollout.Url
