import Rollout.Data.FileTree
import Rollout.Run.Orchestration
import Rollout.Toml.Reader
import Rollout.Toml.Writer
import Rollout.Url

/-!
# Config — the description of a rollout in a file

A configuration names the components and wiring steps of a plan and how to run it: the node, the
waits, and where the compiled contracts are. It is read from a document and written back as one
(`Config.ofValue?`, `Config.toValue`); what a document leaves out takes a default.
-/

namespace Rollout

structure Network where
  url : Url
  /-- The chain the node is expected to belong to. -/
  chainId : Option Nat := none
  /-- The account that requests are sent from. -/
  deployer : Address := Address.defaultDeployer
  deriving DecidableEq

def Network.default : Network where
  url := ⟨"http://127.0.0.1:8545/"⟩

structure Config where
  /-- The directory of the compiled contracts. -/
  artifactsDir : String
  precheck : Bool := false
  registry : Option String := none
  network : Network := Network.default
  confirmation : ConfirmationPolicy := {}
  propagation : PropagationPolicy := {}
  components : List Component := []
  wiring : List WiringStep := []
  deriving DecidableEq

/-! ## Documents -/

namespace PropagationMode

def toText : PropagationMode → String
  | poll => "poll"
  | fixed => "fixed"

def ofText? (text : String) : Option PropagationMode :=
  if text = "poll" then some poll else if text = "fixed" then some fixed else none

def ofValue? (d : Dialect) (v : Value) : Option PropagationMode :=
  (v.name? d ["poll", "fixed"]).bind ofText?

end PropagationMode

namespace PropagationPolicy

def fieldNames : List String := ["mode", "poll_interval_ms", "timeout_secs", "fixed_delay_ms"]

def ofValue? (d : Dialect) (v : Value) : Option PropagationPolicy :=
  match v.record? d fieldNames with
  | some [mode, interval, timeout, delay] => do
    let mode ← Value.default? (PropagationMode.ofValue? d) .poll mode
    let pollIntervalMs ← Value.default? Value.word? 500 interval
    let timeoutSecs ← Value.default? Value.word? 60 timeout
    let fixedDelayMs ← Value.default? Value.word? 6000 delay
    pure { mode, pollIntervalMs, timeoutSecs, fixedDelayMs }
  | _ => none

def toValue (p : PropagationPolicy) : Value :=
  .object [("mode", .string p.mode.toText), ("poll_interval_ms", .unsigned p.pollIntervalMs),
    ("timeout_secs", .unsigned p.timeoutSecs), ("fixed_delay_ms", .unsigned p.fixedDelayMs)]

end PropagationPolicy

namespace ConfirmationPolicy

def fieldNames : List String := ["timeout_secs", "poll_interval_ms"]

def ofValue? (d : Dialect) (v : Value) : Option ConfirmationPolicy :=
  match v.record? d fieldNames with
  | some [timeout, interval] => do
    let timeoutSecs ← Value.default? Value.word? 120 timeout
    let pollIntervalMs ← Value.default? Value.word? 1000 interval
    pure { timeoutSecs, pollIntervalMs }
  | _ => none

def toValue (p : ConfirmationPolicy) : Value :=
  .object [("timeout_secs", .unsigned p.timeoutSecs), ("poll_interval_ms", .unsigned p.pollIntervalMs)]

end ConfirmationPolicy

namespace Network

def fieldNames : List String := ["rpc_url", "chain_id", "deployer"]

def ofValue? (d : Dialect) (v : Value) : Option Network :=
  match v.record? d fieldNames with
  | some [url, chainId, deployer] => do
    let url ← Value.required? (fun v => v.string?.bind Url.parse) url
    let chainId ← Value.default? (Value.optional? Value.word?) none chainId
    let deployer ← Value.default? (Value.fixedBytes? d 20) Address.defaultDeployer deployer
    pure { url, chainId, deployer }
  | _ => none

def toValue (n : Network) : Value :=
  .object
    (("rpc_url", .string n.url.text) ::
      (Component.optionalField "chain_id" .unsigned n.chainId ++
        [("deployer", .string n.deployer.toHex)]))

end Network

namespace Config

/-- The fields of a configuration, in order. -/
def fieldNames : List String :=
  ["artifacts_dir", "precheck_authority", "naming_registry", "network", "confirmation", "propagation",
    "components", "wiring"]

def ofValue? (d : Dialect) (v : Value) : Option Config :=
  match v.record? d fieldNames with
  | some [artifactsDir, precheck, registry, network, confirmation, propagation, components, wiring] => do
    let artifactsDir ← Value.required? Value.string? artifactsDir
    let precheck ← Value.default? Value.bool? false precheck
    let registry ← Value.default? (Value.optional? Value.string?) none registry
    let network ← Value.default? (Network.ofValue? d) Network.default network
    let confirmation ← Value.default? (ConfirmationPolicy.ofValue? d) {} confirmation
    let propagation ← Value.default? (PropagationPolicy.ofValue? d) {} propagation
    let components ← Value.default? (Value.list? (Component.ofValue? d)) [] components
    let wiring ← Value.default? (Value.list? (WiringStep.ofValue? d)) [] wiring
    pure { artifactsDir, precheck, registry, network, confirmation, propagation, components, wiring }
  | _ => none

def toValue (c : Config) : Value :=
  .object
    ([("artifacts_dir", .string c.artifactsDir), ("precheck_authority", .bool c.precheck)] ++
      (Component.optionalField "naming_registry" .string c.registry ++
        [("network", c.network.toValue), ("confirmation", c.confirmation.toValue),
          ("propagation", c.propagation.toValue),
          ("components", .array (c.components.map Component.toValue)),
          ("wiring", .array (c.wiring.map WiringStep.toValue))]))

/-- Reads the text of a configuration file. -/
def ofToml? (text : String) : Option Config :=
  (Toml.parse text).bind (ofValue? .toml)

/-- The text of a configuration file; none if a number is too large for one. -/
def toToml? (c : Config) : Option String :=
  Toml.write c.toValue

/-! ## Plans and settings -/

def plan (c : Config) : Except DeployError Plan :=
  Plan.make c.components c.registry c.wiring

def settings (c : Config) : Settings :=
  { confirmation := c.confirmation, propagation := c.propagation, precheck := c.precheck }

end Config

end Rollout
