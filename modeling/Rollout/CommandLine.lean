import Rollout.CommandLine.Invocation
import Rollout.CommandLine.Listing
import Rollout.Config.Override
import Rollout.Config.Preset
import Rollout.Ledger.Remote
import Rollout.Ledger.Simulated

/-!
# CommandLine — what the program does for its arguments

`run` takes the arguments and what is around the program (files, variables and a node) to an outcome:
an exit code, two texts, and the files and the node afterwards. A failed command exits with 1 and tells
its error with all causes; a command line that cannot be read exits with 2.
-/

namespace Rollout.CommandLine

/-- What is around the program. -/
structure Surroundings where
  files : FileTree
  environment : List (String × String)
  node : Remote.Node

/-- What a run of the program leaves. -/
structure Outcome where
  exit : Nat
  output : String
  errors : String
  files : FileTree
  node : Remote.Node

/-! ## Errors -/

/-- An error with the causes of it, the outermost first. -/
def causesOf : DeployError → List String
  | .ledger (.transport causes) => DeployError.message (.ledger (.transport causes)) :: causes
  | e => [e.message]

/-- A text whose lines from the second on begin with blanks. -/
def indented (blanks : String) (text : String) : String :=
  String.intercalate ("\n" ++ blanks) (text.splitOn "\n")

/-- A number at the right end of five columns. -/
def numberColumn (n : Nat) : String :=
  let digits := toString n
  Table.spaces (5 - digits.length) ++ digits ++ ": "

/-- The causes behind an error: one on its own, or several with numbers. -/
def causeLines : List String → List String
  | [cause] => ["    " ++ indented "    " cause]
  | causes => causes.zipIdx.map fun (cause, i) => numberColumn i ++ indented "       " cause

/-- The text of an error with its causes. -/
def errorText : List String → String
  | [] => ""
  | [error] => s!"Error: {error}\n"
  | error :: causes =>
    s!"Error: {error}\n\nCaused by:\n" ++ String.intercalate "\n" (causeLines causes) ++ "\n"

namespace Surroundings

def succeed (s : Surroundings) (output : String) : Outcome where
  exit := 0
  output
  errors := ""
  files := s.files
  node := s.node

/-- Fails with the causes, after a text that tells how far things have come. -/
def fail (s : Surroundings) (causes : List String) (progress : String := "") : Outcome where
  exit := 1
  output := ""
  errors := progress ++ errorText causes
  files := s.files
  node := s.node

end Surroundings

/-! ## Configurations and plans -/

/-- The configuration at a path with the settings of the environment, or the causes why there is
none. -/
def loadConfig (s : Surroundings) (path : String) : Except (List String) Config :=
  match Config.load s.files path with
  | .error e => .error ("Failed to load configuration (run `ensforge init` to create one)" :: e.causes)
  | .ok config =>
    match config.overridden? s.environment with
    | none =>
      .error ["Failed to apply ENSFORGE_ environment overrides", "a value does not fit its setting"]
    | some config => .ok (config.relocate (Config.filePath s.files path))

def loadPlan (config : Config) : Except (List String) Plan :=
  config.plan.mapError fun e => "Invalid deployment plan" :: causesOf e

/-! ## Commands -/

/-- The report of a run, or the error that ended it behind everything that was done before. -/
def reportRun (s : Surroundings) : Except Failure Report → Outcome
  | .ok report => s.succeed (Listing.ofReport report)
  | .error failure =>
    let unconfirmed :=
      match failure.pending with
      | some transaction =>
        s!"Unconfirmed transaction: {transaction} (check it on the node before re-running)\n"
      | none => ""
    s.fail (failure.message :: causesOf failure.error)
      (unconfirmed ++ "Partial progress:\n" ++ Listing.ofReport failure.report)

/-- Runs a plan on a simulated ledger. -/
def deploySimulated (s : Surroundings) (config : Config) (plan : Plan) : Outcome :=
  let start : Session Simulated.World := { ledger := {} }
  let (result, _) :=
    Run.run (Simulated.ledger config.network.deployer) plan config.settings Registry.empty start
  reportRun s result

def connectionOf (s : Surroundings) (config : Config) : Remote.Connection where
  url := config.network.url.text
  deployer := config.network.deployer
  artifacts := ⟨config.artifactsDir, FileTree.Location.at? { tree := s.files } config.artifactsDir⟩
  pollIntervalMs := config.confirmation.pollIntervalMs

/-- Runs a plan on the node, once it is known to belong to the right chain. -/
def deployRemote (s : Surroundings) (config : Config) (plan : Plan) : Outcome :=
  let connection := connectionOf s config
  match Remote.chainId connection s.node with
  | (.error e, _, node) => { s with node }.fail (causesOf (.ledger e))
  | (.ok chain, _, node) =>
    let expected := config.network.chainId.getD chain
    if chain ≠ expected then
      { s with node }.fail
        [s!"Node at {config.network.url.text} reports chain id {chain}, configuration expects {expected}"]
    else
      let start : Session Remote.Node := { ledger := node }
      let (result, after) :=
        Run.run (Remote.ledger connection) plan config.settings Registry.empty start
      reportRun { s with node := after.ledger } result

/-- A configuration with another endpoint, if one is given. -/
def withEndpoint (config : Config) : Option Url → Config
  | some url => { config with network := { config.network with url } }
  | none => config

def deploy (s : Surroundings) (path : String) (simulate : Bool) (endpoint : Option Url) : Outcome :=
  match loadConfig s path with
  | .error causes => s.fail causes
  | .ok config =>
    let config := withEndpoint config endpoint
    match loadPlan config with
    | .error causes => s.fail causes
    | .ok plan => if simulate then deploySimulated s config plan else deployRemote s config plan

def showPlan (s : Surroundings) (path : String) : Outcome :=
  match loadConfig s path >>= loadPlan with
  | .error causes => s.fail causes
  | .ok plan => s.succeed (Listing.ofPlan plan)

def writePreset (s : Surroundings) (domain out : String) (force : Bool) : Outcome :=
  let path := Config.filePath s.files out
  if (s.files.at? path).isSome ∧ force = false then
    s.fail [s!"{path} already exists, pass --force to overwrite it"]
  else
    match (Config.preset domain Pricing.default).save s.files path with
    | .ok files => { s with files }.succeed s!"Wrote {path}\n"
    | .error e => s.fail e.causes

def showNode (s : Surroundings) (path : String) : Outcome :=
  let label := String.ofList (path.toList.takeWhile (· ≠ '.'))
  s.succeed
    (s!"node:      {(Naming.node path).toHex}\n" ++
      s!"labelhash: {(Naming.labelHash label).toHex} ({label})\n")

def execute (s : Surroundings) : Command → Outcome
  | .deploy config simulate endpoint => deploy s config simulate endpoint
  | .plan config => showPlan s config
  | .init domain out force => writePreset s domain out force
  | .namehash path => showNode s path

/-! ## Arguments -/

def versionText : String := "ensforge 0.1.0\n"

def helpText : String :=
  "Deploy and wire a naming system in one run\n\n" ++
    "Usage: ensforge [--verbosity LEVEL] COMMAND\n\n" ++
    "Commands:\n" ++
    "  deploy    [--config PATH] [--simulate] [--rpc-url URL]\n" ++
    "  plan      [--config PATH]\n" ++
    "  init      [--tld DOMAIN] [--out PATH] [--force]\n" ++
    "  namehash  PATH\n"

def run (s : Surroundings) (arguments : List String) : Outcome :=
  match Invocation.ofArguments s.environment arguments with
  | .ok invocation => execute s invocation.command
  | .error .help => s.succeed helpText
  | .error .version => s.succeed versionText
  | .error (.fault f) =>
    { exit := 2, output := "", errors := s!"error: {f.message}\n", files := s.files, node := s.node }

end Rollout.CommandLine
