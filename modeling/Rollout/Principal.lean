import Rollout.Data.Address
import Rollout.Data.Value
import Rollout.Text.Quoted

/-!
# Principal — identities that a wiring step refers to

A principal is the signing account of the run, a component of the plan, or a literal address. Its
text (`Principal.toText`) is `deployer`, `@` with a name, or the checksummed address, and
`Principal.parse` reads every such text.
-/

namespace Rollout

inductive Principal where
  | deployer
  | component (name : String)
  | address (a : Address)
  deriving DecidableEq

namespace Principal

/-- Why a text names no principal. -/
inductive Fault where
  | address (text : String) (fault : Address.Fault)
  | unknown (text : String)
  deriving DecidableEq, Repr

def toText : Principal → String
  | deployer => "deployer"
  | component name => String.ofList ('@' :: name.toList)
  | address a => a.checksummed

instance : ToString Principal := ⟨toText⟩

def parse (text : String) : Except Fault Principal :=
  if text = "deployer" then .ok deployer
  else
    match text.toList with
    | '@' :: c :: name => .ok (component (String.ofList (c :: name)))
    | '0' :: 'x' :: _ =>
      match Address.parse text with
      | .ok a => .ok (address a)
      | .error fault => .error (.address text fault)
    | _ => .error (.unknown text)

/-- The name of the component that is referred to, if one is. -/
def component? : Principal → Option String
  | component name => some name
  | _ => none

/-! ## Texts -/

def addressFaultText : Address.Fault → String
  | .odd => "odd number of digits"
  | .wrongLength => "invalid string length"
  | .invalid byte position =>
    "invalid character " ++ Text.quoteByte byte ++ " at position " ++ toString position

def Fault.message : Fault → String
  | .address text fault => s!"invalid address `{text}`: " ++ addressFaultText fault
  | .unknown text =>
    s!"invalid principal `{text}`: expected `deployer`, `@Component` or a 0x address"

def ofValue? (v : Value) : Option Principal :=
  v.string?.bind fun text => (parse text).toOption

def toValue (p : Principal) : Value :=
  .string p.toText

end Principal

end Rollout
