import Rollout.CommandLine.Switches
import Rollout.Config.File
import Rollout.Url

/-!
# CommandLine/Invocation — what a command line asks for

`Invocation.ofArguments` reads the arguments of the program. What they leave out is taken from the
environment and else has a default. The verbosity may be given before or behind the command.
-/

namespace Rollout.CommandLine

/-- How much is logged. -/
inductive Verbosity where
  | off
  | error
  | warn
  | info
  | debug
  | trace
  deriving DecidableEq

inductive Command where
  /-- Runs the plan of a configuration, on a simulated ledger or on the node of the configuration,
  which may be replaced by another endpoint. -/
  | deploy (config : String) (simulate : Bool) (endpoint : Option Url)
  /-- Lists the plan of a configuration. -/
  | plan (config : String)
  /-- Writes the configuration for a top-level domain. -/
  | init (domain out : String) (force : Bool)
  /-- Shows the node of a naming path. -/
  | namehash (path : String)
  deriving DecidableEq

structure Invocation where
  verbosity : Verbosity
  command : Command
  deriving DecidableEq

/-! ## Verbosity -/

namespace Verbosity

/-- All levels, in order of their numbers, with their names. -/
def named : List (Verbosity × String) :=
  [(off, "off"), (error, "error"), (warn, "warn"), (info, "info"), (debug, "debug"), (trace, "trace")]

/-- A level by its number, which may have a plus sign and zeros in front. -/
def ofNumber? (text : List Char) : Option Verbosity :=
  let digits := if text.head? = some '+' then text.drop 1 else text
  if digits ≠ [] ∧ digits.all Char.isDigit then
    let significant := digits.dropWhile (· = '0')
    match significant with
    | [] => some off
    | [c] => (named[c.toNat - 48]?).map Prod.fst
    | _ => none
  else none

/-- A level by its number or its name; no text at all stands for errors. -/
def ofText? (text : String) : Option Verbosity :=
  if text = "" then some error
  else
    (ofNumber? text.toList).or
      ((named.find? fun entry => entry.2.toList = text.toList.map Char.toLower).map Prod.fst)

end Verbosity

/-! ## Options -/

def verbositySwitch : Switch where
  name := "verbosity"
  letter := some 'v'
  fallback := some "ENSFORGE_VERBOSITY"
  accepts := fun value => (Verbosity.ofText? value).isSome

def configSwitch : Switch where
  name := "config"
  aliases := ["conf"]
  fallback := some "ENSFORGE_CONFIG"
  accepts := fun value => value ≠ ""

def simulateSwitch : Switch where
  name := "simulate"
  takesValue := false
  fallback := some "ENSFORGE_SIMULATE"
  accepts := fun value => value = "true" || value = "false"

def endpointSwitch : Switch where
  name := "rpc-url"
  aliases := ["rpc"]
  fallback := some "ENSFORGE_RPC_URL"
  accepts := fun value => (Url.parse value).isSome

def domainSwitch : Switch where
  name := "tld"
  fallback := some "ENSFORGE_TLD"

def outSwitch : Switch where
  name := "out"
  accepts := fun value => value ≠ ""

def forceSwitch : Switch where
  name := "force"
  takesValue := false

/-- The top-level domain of a new configuration. -/
def defaultDomain : String := "btc"

/-! ## Commands -/

/-- The names of the commands. -/
def commandNames : List String := ["deploy", "plan", "init", "namehash"]

/-- The options of a command and the number of words it takes. -/
def shapeOf? (name : String) : Option (List Switch × Nat) :=
  if name = "deploy" then some ([configSwitch, simulateSwitch, endpointSwitch], 0)
  else if name = "plan" then some ([configSwitch], 0)
  else if name = "init" then some ([domainSwitch, outSwitch, forceSwitch], 0)
  else if name = "namehash" then some ([], 1)
  else none

/-- The command of a name, from what it was given. -/
def Command.ofWords (environment : List (String × String)) (name : String) (w : Words) :
    Except Stop Command := do
  let value? := w.value? environment
  if name = "deploy" then
    let config ← value? configSwitch
    let simulate ← value? simulateSwitch
    let endpoint ← value? endpointSwitch
    pure (.deploy (config.getD Config.fileName) (simulate = some "true") (endpoint.bind Url.parse))
  else if name = "plan" then
    pure (.plan ((← value? configSwitch).getD Config.fileName))
  else if name = "init" then
    let domain ← value? domainSwitch
    let out ← value? outSwitch
    let force ← value? forceSwitch
    pure (.init (domain.getD defaultDomain) (out.getD Config.fileName) (force = some "true"))
  else
    match w.words with
    | path :: _ => pure (.namehash path)
    | [] => .error (.fault (.missingArgument "PATH"))

/-- What a request for help about the given commands leads to. -/
def helpAbout : List String → Stop
  | [] => .help
  | [name] => if name = "help" ∨ name ∈ commandNames then .help else .fault (.unknownCommand name)
  | _ :: name :: _ => .fault (.unknownCommand name)

/-- Reads the arguments behind the program's name. -/
def Invocation.ofArguments (environment : List (String × String)) (arguments : List String) :
    Except Stop Invocation := do
  let outer ← scanBefore [verbositySwitch, helpSwitch, versionSwitch] [] arguments
  match outer.words with
  | [] => .error (.fault .missingCommand)
  | name :: rest =>
    if name = "help" then .error (helpAbout rest)
    else
      match shapeOf? name with
      | none => .error (.fault (.unknownCommand name))
      | some (switches, limit) =>
        let inner ← scan (verbositySwitch :: helpSwitch :: switches) limit [] rest
        let command ← Command.ofWords environment name inner
        let before ← outer.value? environment verbositySwitch
        let behind ← inner.value? environment verbositySwitch
        let given := (List.lookup verbositySwitch.name inner.options).or (before.or behind)
        pure { verbosity := (given.bind Verbosity.ofText?).getD .info, command }

end Rollout.CommandLine
