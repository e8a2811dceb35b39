import Roster.Address.Reader
import Roster.Options.Document

/-!
# Arguments of the command line

An option is named by a long name behind two dashes or by a letter behind one.
Its value follows as an argument of its own, behind an equals sign, or
directly behind the letter.  A value that starts with a dash has to be
attached.  No other arguments are accepted.

An option whose value is an argument of its own waits for what comes next: it
is checked once the next option is read or the arguments are over.

The options come from a document, if the arguments name one, and else are the
defaults.  Arguments take precedence over the document.  The result is
validated.
-/

namespace Roster

/-- What an option of the command line sets. -/
inductive Parameter where
  | config
  | addr
  | port
  | env
  | seed
  | agent
  | verbose
  | help
  deriving DecidableEq, Repr

namespace Parameter

def ofName? : List Char → Option Parameter := fun name =>
  [("config", config), ("addr", addr), ("port", port), ("env", env), ("seed", seed),
    ("host-agent", agent), ("verbose", verbose), ("help", help)].lookup (String.ofList name)

def ofLetter? : Char → Option Parameter
  | 'c' => some config
  | 'a' => some addr
  | 'p' => some port
  | 's' => some seed
  | 'h' => some help
  | _ => none

def isSwitch : Parameter → Bool
  | verbose | help => true
  | _ => false

def isRepeatable : Parameter → Bool
  | seed | agent => true
  | _ => false

end Parameter

/-- The arguments of one call. -/
structure Arguments where
  config : Option String := none
  addr : Option String := none
  port : Option UInt16 := none
  env : Option String := none
  seeds : List SocketAddress := []
  agents : List String := []
  verbose : Bool := false
  deriving DecidableEq

namespace Arguments

/-- Why arguments are refused. -/
inductive Fault where
  | badValue
  | missingValue
  | unexpectedValue
  | unknown
  | repeated
  | helpWanted
  deriving DecidableEq, Repr

def Fault.message : Fault → String
  | .badValue => "a value is not valid for its option"
  | .missingValue => "an option lacks its value"
  | .unexpectedValue => "a switch takes no value"
  | .unknown => "an argument is unknown"
  | .repeated => "an option is given more than once"
  | .helpWanted => "help is wanted"

def readPort (text : List Char) : Option UInt16 :=
  match text with
  | '-' :: digits => (Text.readDecimal 1 digits).map UInt16.ofNat
  | _ => (Text.readUnsigned UInt16.size text).map UInt16.ofNat

def set (arguments : Arguments) (parameter : Parameter) (value : String) :
    Except Fault Arguments :=
  match parameter with
  | .config =>
      if value = "" then .error .missingValue else .ok { arguments with config := some value }
  | .addr => .ok { arguments with addr := some value }
  | .env => .ok { arguments with env := some value }
  | .agent => .ok { arguments with agents := arguments.agents ++ [value] }
  | .port =>
      match readPort value.toList with
      | some port => .ok { arguments with port := some port }
      | none => .error .badValue
  | .seed =>
      match SocketAddress.ofString? value with
      | some seed => .ok { arguments with seeds := arguments.seeds ++ [seed] }
      | none => .error .badValue
  | .verbose => .ok { arguments with verbose := true }
  | .help => .error .helpWanted

/-- Arguments that are being read: which parameters were given, and the one
that waits to be checked, with its value once that was read. -/
structure Progress where
  arguments : Arguments := {}
  given : List Parameter := []
  waiting : Option (Parameter × Option String) := none

namespace Progress

def assign (progress : Progress) (parameter : Parameter) (value : Option String) :
    Except Fault Progress := do
  let value ←
    match value with
    | some value => pure value
    | none => if parameter.isSwitch then pure "" else throw .missingValue
  if parameter ∈ progress.given && !parameter.isRepeatable then
    throw .repeated
  return {
    arguments := ← progress.arguments.set parameter value
    given := parameter :: progress.given }

def settle (progress : Progress) : Except Fault Progress :=
  match progress.waiting with
  | none => .ok progress
  | some (parameter, value) => { progress with waiting := none }.assign parameter value

/-- An option was read with its value, if one was attached. -/
def option (progress : Progress) (parameter : Parameter) (value : Option String) :
    Except Fault Progress := do
  let progress ← progress.settle
  if parameter.isSwitch || value.isSome then
    progress.assign parameter value
  else
    return { progress with waiting := some (parameter, none) }

def long (progress : Progress) (text : List Char) : Except Fault Progress :=
  let name := text.takeWhile (· ≠ '=')
  let value := ((text.dropWhile (· ≠ '=')).tail?).map String.ofList
  match Parameter.ofName? name with
  | none => .error .unknown
  | some parameter =>
      if parameter.isSwitch && value.isSome then
        .error .unexpectedValue
      else
        progress.option parameter value

/-- Read options by their letters.  What follows the letter of an option with
a value is the value. -/
def letters (progress : Progress) : List Char → Except Fault Progress
  | [] => .ok progress
  | letter :: rest =>
      match Parameter.ofLetter? letter with
      | none => .error .unknown
      | some parameter =>
          if parameter.isSwitch then do
            letters (← progress.option parameter none) rest
          else
            match rest with
            | [] => progress.option parameter none
            | '=' :: value => progress.option parameter (some (String.ofList value))
            | value => progress.option parameter (some (String.ofList value))

/-- An argument that is no option is the value that is waited for. -/
def plain (progress : Progress) (text : String) : Except Fault Progress :=
  match progress.waiting with
  | some (parameter, none) => .ok { progress with waiting := some (parameter, some text) }
  | _ => .error .unknown

/-- Read arguments in order.  Nothing may follow two dashes that stand
alone. -/
def read (progress : Progress) : List String → Except Fault Progress
  | [] => progress.settle
  | text :: rest =>
      match text.toList with
      | ['-', '-'] => if rest.isEmpty then progress.settle else .error .unknown
      | '-' :: '-' :: name => do read (← progress.long name) rest
      | '-' :: letter :: others => do read (← progress.letters (letter :: others)) rest
      | _ => do read (← progress.plain text) rest

end Progress

def parse (arguments : List String) : Except Fault Arguments :=
  (Progress.read {} arguments).map (·.arguments)

def logFilter (arguments : Arguments) : String :=
  if arguments.verbose then "debug,agent_host=debug" else "info,agent_host=info"

/-- Why there are no options: their document cannot be loaded, or they are not
valid. -/
inductive Refusal where
  | notLoaded (path : String) (cause : Options.Fault)
  | notValid (cause : Options.Fault)
  deriving DecidableEq, Repr

def Refusal.message : Refusal → String
  | .notLoaded path _ => "Failed to load config from " ++ path.quote
  | .notValid _ => "Invalid agent host options"

def Refusal.cause : Refusal → Options.Fault
  | .notLoaded _ cause => cause
  | .notValid cause => cause

def overlay (arguments : Arguments) (options : Options) : Options :=
  { options with
    addr := arguments.addr.getD options.addr
    port := arguments.port.getD options.port
    env := arguments.env.getD options.env }

/-- The options before the arguments take precedence. -/
def loaded (arguments : Arguments) (file : String → Option (List UInt8)) :
    Except Refusal Options :=
  match arguments.config with
  | none => .ok {}
  | some path => (Options.ofFile (file path)).mapError (.notLoaded path)

/-- The valid options that the arguments stand for, given the content of every
file. -/
def options (arguments : Arguments) (file : String → Option (List UInt8)) :
    Except Refusal Options := do
  let options := arguments.overlay (← arguments.loaded file)
  options.validate.mapError .notValid
  return options

end Arguments

end Roster
