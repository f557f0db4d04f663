import Rollout.Artifact
import Rollout.Json.Writer
import Rollout.Ledger

/-!
# Ledger/Remote — a ledger behind a node

Requests go to a node as JSON-RPC: contracts and calls by `eth_sendTransaction` from an account whose
key the node holds, receipts and owners by reads. A read that fails is repeated three times with
growing delays; a transaction is sent once, because a second sending could create a second contract.
The node is a list of replies, one for each request, and a reply for all requests after those.
-/

namespace Rollout.Remote

/-- What comes back for a request. -/
inductive Reply where
  /-- The text of a response. -/
  | body (text : String)
  /-- No response, with the causes. -/
  | unreachable (causes : List String)
  deriving DecidableEq

/-- A request as the node receives it. -/
structure Message where
  method : String
  params : List Value

def Message.toValue (m : Message) : Value :=
  .object [("jsonrpc", .string "2.0"), ("method", .string m.method), ("params", .array m.params),
    ("id", .unsigned 1)]

/-- A node, and what it has received so far. -/
structure Node where
  replies : List Reply
  /-- The reply to every request after the replies are used up. -/
  afterwards : Reply
  received : List Message := []

def Node.exchange (n : Node) (m : Message) : Reply × Node :=
  match n.replies with
  | reply :: rest => (reply, { n with replies := rest, received := n.received ++ [m] })
  | [] => (n.afterwards, { n with received := n.received ++ [m] })

/-- How the node is used. -/
structure Connection where
  url : String
  deployer : Address
  artifacts : ArtifactStore
  /-- The pause between two looks for a receipt. -/
  pollIntervalMs : Nat := 1000

/-! ## Responses -/

/-- An error that the node reports. -/
structure NodeError where
  code : Int
  message : String
  /-- What comes with it, in the order of the keys. -/
  data : Option Value

namespace NodeError

def describe (e : NodeError) : String :=
  s!"RPC error {e.code}: {e.message}" ++
    match e.data with
    | some data => " (" ++ Json.write data ++ ")"
    | none => ""

def ofValue? (v : Value) : Option NodeError :=
  match v.record? .json ["code", "message", "data"] with
  | some [code, message, data] => do
    let code ← Value.required? Value.int64? code
    let message ← Value.required? Value.string? message
    let data ← Value.default? (Value.optional? fun v => some v.canonical) none data
    pure { code, message, data }
  | _ => none

end NodeError

/-- Fields that may be absent, except that a sequence has to give them all. -/
def complete? (names : List String) (v : Value) : Option (List (Option Value)) :=
  match v with
  | .array items => if items.length = names.length then v.record? .json names else none
  | _ => v.record? .json names

/-- The error or the result of a response; an absent result is null. A repeated field makes the
response unreadable, but inside of the result only its last value counts. -/
def responseOf? (v : Value) : Option (NodeError ⊕ Value) :=
  match complete? ["result", "error"] v with
  | some [result, error] => do
    match ← Value.default? (Value.optional? NodeError.ofValue?) none error with
    | some error => pure (.inl error)
    | none => pure (.inr (result.getD .null).canonical)
  | _ => none

/-- The result in a reply to a request, or the causes why there is none. -/
def resultOf {α : Type} (url method : String) (read : Value → Option α) :
    Reply → Except (List String) α
  | .unreachable causes =>
    .error (s!"Failed to send {method} request" :: s!"error sending request for url ({url})" :: causes)
  | .body text =>
    match (Json.parse text).bind responseOf? with
    | none => .error [s!"Failed to parse {method} response", "error decoding response body"]
    | some (.inl error) => .error [s!"{method} failed", error.describe]
    | some (.inr result) =>
      match read result with
      | some a => .ok a
      | none => .error [s!"Failed to deserialize {method} result", "not of the expected form"]

/-- One request and its result. -/
def ask {α : Type} (c : Connection) (read : Value → Option α) (m : Message) (n : Node) :
    Except (List String) α × Node :=
  let (reply, n) := n.exchange m
  (resultOf c.url m.method read reply, n)

/-! ## Reads -/

/-- The delays before the repetitions of a failed read, in milliseconds. -/
def retryDelays : List Nat := [1000, 2000, 4000]

/-- Whether an instant is not beyond a limit. -/
def within (limit : Option Nat) (instant : Nat) : Bool :=
  match limit with
  | some limit => instant ≤ limit
  | none => true

/-- Repeats a request while it fails and there are delays left, starting at the given instant. With
the result comes the instant it is there; none if the limit comes first. -/
def retry {α : Type} (c : Connection) (read : Value → Option α) (m : Message) (limit : Option Nat) :
    List Nat → Nat → Node → Option (Except (List String) α × Nat) × Node
  | delays, instant, n =>
    match ask c read m n with
    | (.ok a, n) => (some (.ok a, instant), n)
    | (.error causes, n) =>
      match delays with
      | [] => (some (.error causes, instant), n)
      | delay :: delays =>
        if within limit (instant + delay) then retry c read m limit delays (instant + delay) n
        else (none, n)

/-- A request repeated until it succeeds or has failed four times, and the time that takes. -/
def ask4 {α : Type} (c : Connection) (read : Value → Option α) (m : Message) (n : Node) :
    Except (List String) α × Nat × Node :=
  match retry c read m none retryDelays 0 n with
  | (some (result, elapsed), n) => (result, elapsed, n)
  | (none, n) => (.error [], 0, n)

/-! ## Numbers and bytes in results -/

/-- Why a text is no hex number of sixty-four bits. -/
inductive NumeralFault where
  | empty
  | invalidDigit
  | tooLarge
  deriving DecidableEq

def NumeralFault.message : NumeralFault → String
  | empty => "cannot parse integer from empty string"
  | invalidDigit => "invalid digit found in string"
  | tooLarge => "number too large to fit in target type"

/-- Reads hex digits from the most significant on. -/
def hexWordFrom (value : Nat) : List UInt8 → Except NumeralFault Nat
  | [] => .ok value
  | b :: rest =>
    match Hex.digitValue? b with
    | none => .error .invalidDigit
    | some d =>
      if 16 * value + d < UInt64.size then hexWordFrom (16 * value + d) rest else .error .tooLarge

/-- Reads a hex number behind any markers, with an optional plus sign. -/
def hexWord (text : String) : Except NumeralFault Nat :=
  match Hex.stripMarkers (Hex.bytesOf text) with
  | [] => .error .empty
  | [43] => .error .invalidDigit
  | 43 :: digits => hexWordFrom 0 digits
  | digits => hexWordFrom 0 digits

def quantity? (v : Value) : Option Nat :=
  v.string?.bind fun text => (hexWord text).toOption

/-- Any number of bytes, as hex digits or as a sequence of numbers. -/
def bytes? : Value → Option (List UInt8)
  | .string s => (Hex.decode (Hex.stripMarker (Hex.bytesOf s))).toOption
  | .array items => items.mapM Value.byte?
  | _ => none

/-! ## Transactions -/

def hexText (bytes : List UInt8) : Value :=
  .string (String.ofList ('0' :: 'x' :: Hex.encode bytes))

/-- The code of a contract with its libraries, followed by its arguments. -/
def creationData (c : Connection) (creation : Creation) : Except LedgerError (List UInt8) := do
  let artifact ← c.artifacts.load creation.contract
  let code ← artifact.link creation.libraries
  pure (code ++ AbiValue.encode creation.args)

/-- The request that sends a transaction. -/
def transactionMessage (c : Connection) : Request → Except LedgerError Message
  | .create creation => do
    let data ← creationData c creation
    pure ⟨"eth_sendTransaction",
      [.object [("from", .string c.deployer.toHex), ("data", hexText data)]]⟩
  | .call target call =>
    pure ⟨"eth_sendTransaction",
      [.object [("from", .string c.deployer.toHex), ("to", .string target.toHex),
        ("data", hexText call.encode)]]⟩

def describeRequest : Request → String
  | .create creation => s!"creation of {creation.name}"
  | .call target call => s!"{call.name} on {target.checksummed}"

/-- Sends a transaction once. -/
def submit (c : Connection) (request : Request) (n : Node) : Except LedgerError Digest × Node :=
  match transactionMessage c request with
  | .error error => (.error error, n)
  | .ok message =>
    match ask c (Value.fixedBytes? .json 32) message n with
    | (.ok transaction, n) => (.ok transaction, n)
    | (.error causes, n) =>
      (.error (.transport (s!"Failed to submit {describeRequest request}" :: causes)), n)

/-! ## Receipts -/

/-- A receipt as the node reports it. -/
def receiptOf? (v : Value) : Option Receipt :=
  match complete? ["transactionHash", "blockNumber", "status", "contractAddress"] v with
  | some [transaction, block, status, address] => do
    let transaction ← Value.required? (Value.fixedBytes? .json 32) transaction
    let block ← Value.required? quantity? block
    let status ← Value.required? quantity? status
    let address ← Value.default? (Value.optional? (Value.fixedBytes? .json 20)) none address
    pure
      { transaction, block, success := status = 1, contractAddress := address,
        revertReason := if status = 1 then none else some "transaction reverted" }
  | _ => none

def receiptMessage (transaction : Digest) : Message :=
  ⟨"eth_getTransactionReceipt", [.string transaction.toHex]⟩

/-- Looks for a receipt again and again, first at the given instant. `fuel` bounds the looks. -/
def pollReceipt (c : Connection) (transaction : Digest) (limit : Option Nat) :
    Nat → Nat → Node → Confirmation Node
  | 0, _, n => .unsettled n
  | fuel + 1, instant, n =>
    match retry c (Value.optional? receiptOf?) (receiptMessage transaction) limit retryDelays instant n with
    | (none, n) => .unsettled n
    | (some (.error causes, instant), n) =>
      .settled instant (.error (.transport (s!"Failed to fetch receipt of {transaction}" :: causes))) n
    | (some (.ok (some receipt), instant), n) => .settled instant (.ok receipt) n
    | (some (.ok none, instant), n) =>
      if within limit (instant + c.pollIntervalMs) then
        pollReceipt c transaction limit fuel (instant + c.pollIntervalMs) n
      else .unsettled n

/-- The looks for a receipt that fit into a limit or are needed to use up the replies. -/
def looksWithin (c : Connection) (limit : Nat) (n : Node) : Nat :=
  n.replies.length + limit / c.pollIntervalMs + 2

def await (c : Connection) (transaction : Digest) (limit : Nat) (n : Node) : Confirmation Node :=
  pollReceipt c transaction (some limit) (looksWithin c limit n) 0 n

/-! ## Owners and the chain -/

def ownerMessage (registry : Address) (node : Digest) : Message :=
  ⟨"eth_call",
    [.object [("to", .string registry.toHex),
      ("data", hexText (Call.callData "owner(bytes32)" [.bytes32 node]))],
     .string "latest"]⟩

/-- The address at the end of the first word of some output. -/
def addressOf? (output : List UInt8) : Option Address :=
  FixedBytes.ofList? 20 ((output.take 32).drop 12)

def owner (c : Connection) (registry : Address) (node : Digest) (n : Node) : OwnerRead Node :=
  match ask4 c bytes? (ownerMessage registry node) n with
  | (.error causes, elapsed, n) =>
    ⟨.error (.transport (s!"Failed to read owner of {node}" :: causes)), elapsed, n⟩
  | (.ok output, elapsed, n) =>
    match addressOf? output with
    | some a => ⟨.ok a, elapsed, n⟩
    | none => ⟨.error (.transport ["owner(bytes32) returned less than one word"]), elapsed, n⟩

/-- The number of the chain that the node belongs to, and the time it takes to ask for it. -/
def chainId (c : Connection) (n : Node) : Except LedgerError Nat × Nat × Node :=
  match ask4 c Value.string? ⟨"eth_chainId", []⟩ n with
  | (.error causes, elapsed, n) => (.error (.transport causes), elapsed, n)
  | (.ok text, elapsed, n) =>
    match hexWord text with
    | .ok id => (.ok id, elapsed, n)
    | .error fault =>
      (.error (.transport [s!"Invalid chain id returned by the node: {text}", fault.message]), elapsed, n)

/-- The ledger behind a node. -/
def ledger (c : Connection) : Ledger Node where
  deployer := c.deployer
  submit := submit c
  await := await c
  owner := owner c

end Rollout.Remote
