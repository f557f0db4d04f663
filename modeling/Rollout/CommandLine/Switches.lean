/-!
# CommandLine/Switches — options among the arguments of a command

A switch is an option with or without a value, written `--name value`, `--name=value` or with one
letter. `scan` separates the switches of a command from its other arguments. Reading stops at the
first fault and at the first request for help, whichever comes first.
-/

namespace Rollout.CommandLine

/-- An option that a command knows. -/
structure Switch where
  /-- The names behind two dashes, the proper one first. -/
  name : String
  aliases : List String := []
  letter : Option Char := none
  takesValue : Bool := true
  /-- The environment variable that stands in for a missing option. -/
  fallback : Option String := none
  /-- The values that the option takes, given on the command line or by the environment. -/
  accepts : String → Bool := fun _ => true

/-- What is wrong with a command line. -/
inductive UsageFault where
  | unknownOption (argument : String)
  | unexpectedValue (option : String)
  | missingValue (option : String)
  | badValue (option value : String)
  | repeated (option : String)
  | missingCommand
  | unknownCommand (name : String)
  | missingArgument (name : String)
  | unexpectedArgument (argument : String)
  deriving DecidableEq

/-- Why a command line leads to no command. -/
inductive Stop where
  | help
  | version
  | fault (f : UsageFault)
  deriving DecidableEq

namespace UsageFault

def message : UsageFault → String
  | unknownOption argument => s!"there is no option {argument}"
  | unexpectedValue option => s!"option --{option} takes no value"
  | missingValue option => s!"option --{option} needs a value"
  | badValue option value => s!"invalid value for option --{option}: {value}"
  | repeated option => s!"option --{option} is given more than once"
  | missingCommand => "a command is required"
  | unknownCommand name => s!"there is no command {name}"
  | missingArgument name => s!"argument {name} is required"
  | unexpectedArgument argument => s!"unexpected argument: {argument}"

end UsageFault

/-! ## Arguments one by one -/

/-- The switch that asks for help. -/
def helpSwitch : Switch where
  name := "help"
  letter := some 'h'
  takesValue := false

def versionSwitch : Switch where
  name := "version"
  letter := some 'V'
  takesValue := false

/-- What an argument is. -/
inductive Form where
  /-- No option. -/
  | word
  /-- The end of all options. -/
  | divider
  | flag (s : Switch)
  | withValue (s : Switch) (value : String)
  /-- An option whose value is the next argument. -/
  | awaitingValue (s : Switch)
  | faulty (f : UsageFault)

def findNamed (switches : List Switch) (name : String) : Option Switch :=
  switches.find? fun s => s.name = name || s.aliases.contains name

def findLetter (switches : List Switch) (letter : Char) : Option Switch :=
  switches.find? fun s => s.letter = some letter

def formOf (switches : List Switch) (argument : String) : Form :=
  match argument.toList with
  | ['-', '-'] => .divider
  | '-' :: '-' :: body =>
    match findNamed switches (String.ofList (body.takeWhile (· ≠ '='))), body.dropWhile (· ≠ '=') with
    | none, _ => .faulty (.unknownOption argument)
    | some s, [] => if s.takesValue then .awaitingValue s else .flag s
    | some s, _ :: value =>
      if s.takesValue then .withValue s (String.ofList value) else .faulty (.unexpectedValue s.name)
  | '-' :: letter :: body =>
    match findLetter switches letter, body with
    | none, _ => .faulty (.unknownOption argument)
    | some s, [] => if s.takesValue then .awaitingValue s else .flag s
    | some s, '=' :: value => if s.takesValue then .withValue s (String.ofList value) else .flag s
    | some s, value => if s.takesValue then .withValue s (String.ofList value) else .flag s
  | _ => .word

/-- Whether an argument cannot be the value of the option before it. -/
def looksLikeOption (argument : String) : Bool :=
  argument.toList.head? = some '-' && argument ≠ "-"

/-! ## All arguments -/

/-- The options and the other arguments of a command. -/
structure Words where
  options : List (String × String) := []
  words : List String := []

/-- Adds an option, unless it has occurred before or its value does not do. -/
def addOption (found : List (String × String)) (s : Switch) (value : String) :
    Except Stop (List (String × String)) :=
  if found.any fun entry => entry.1 = s.name then .error (.fault (.repeated s.name))
  else if s.accepts value then .ok (found ++ [(s.name, value)])
  else .error (.fault (.badValue s.name value))

/-- Adds a flag; that for help ends the reading. -/
def addFlag (found : List (String × String)) (s : Switch) : Except Stop (List (String × String)) :=
  if s.name = helpSwitch.name then .error .help
  else if s.name = versionSwitch.name then .error .version
  else if found.any fun entry => entry.1 = s.name then .error (.fault (.repeated s.name))
  else .ok (found ++ [(s.name, "true")])

/-- Takes as many words as are allowed. -/
def takeWords : Nat → List String → Except Stop (List String)
  | _, [] => .ok []
  | 0, word :: _ => .error (.fault (.unexpectedArgument word))
  | limit + 1, word :: rest => do pure (word :: (← takeWords limit rest))

/-- Reads the arguments of a command that takes at most `limit` words. -/
def scan (switches : List Switch) (limit : Nat) (found : List (String × String)) :
    List String → Except Stop Words
  | [] => .ok { options := found }
  | argument :: rest =>
    match formOf switches argument with
    | .faulty f => .error (.fault f)
    | .divider => do pure { options := found, words := ← takeWords limit rest }
    | .word =>
      match limit with
      | 0 => .error (.fault (.unexpectedArgument argument))
      | limit + 1 => do
        let read ← scan switches limit found rest
        pure { read with words := argument :: read.words }
    | .flag s => do scan switches limit (← addFlag found s) rest
    | .withValue s value => do scan switches limit (← addOption found s value) rest
    | .awaitingValue s =>
      match rest with
      | [] => .error (.fault (.missingValue s.name))
      | value :: rest =>
        if looksLikeOption value then .error (.fault (.missingValue s.name))
        else do scan switches limit (← addOption found s value) rest

/-- Reads arguments up to the first word, which is left with everything behind it. -/
def scanBefore (switches : List Switch) (found : List (String × String)) :
    List String → Except Stop Words
  | [] => .ok { options := found }
  | argument :: rest =>
    match formOf switches argument with
    | .faulty f => .error (.fault f)
    | .divider =>
      match rest with
      | [] => .ok { options := found }
      | word :: _ => .error (.fault (.unexpectedArgument word))
    | .word => .ok { options := found, words := argument :: rest }
    | .flag s => do scanBefore switches (← addFlag found s) rest
    | .withValue s value => do scanBefore switches (← addOption found s value) rest
    | .awaitingValue s =>
      match rest with
      | [] => .error (.fault (.missingValue s.name))
      | value :: rest =>
        if looksLikeOption value then .error (.fault (.missingValue s.name))
        else do scanBefore switches (← addOption found s value) rest

/-- The value of an option: that of the command line, else that of its variable. -/
def Words.value? (w : Words) (environment : List (String × String)) (s : Switch) :
    Except Stop (Option String) :=
  match List.lookup s.name w.options with
  | some value => .ok (some value)
  | none =>
    match s.fallback.bind fun name => List.lookup name environment with
    | none => .ok none
    | some value => if s.accepts value then .ok (some value) else .error (.fault (.badValue s.name value))

end Rollout.CommandLine
