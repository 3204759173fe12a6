import Letterbook.Locale

/-! The arguments of the program: options in front of a command, the command, and its options.
Every option takes one value and may be given once; asking for help wins over all that follows, and
in a command also over a wrong value that the last option in front of it was given. -/
namespace Letterbook.CommandLine

inductive Command
  | check
  | targets (source : Option String)
  | render (source target locale data : String)
  deriving DecidableEq, Repr

structure Invocation where
  config : Option String
  manifests : Option String
  command : Command
  deriving DecidableEq, Repr

/-- An option that takes a value; a path must not be empty. -/
structure OptionSpec where
  short : Char
  long : String
  path : Bool
  deriving DecidableEq, Repr

/-- Why arguments are refused. -/
inductive UsageError
  | unexpected (argument : String)
  | valueless (option : String)
  | emptyValue (option : String)
  | repeated (option : String)
  | absent (option : String)
  | noCommand
  | unknownCommand (name : String)
  deriving DecidableEq, Repr

/-- What help is asked for: the program or one of its commands. -/
inductive Topic
  | program
  | check
  | targets
  | render
  | help
  deriving DecidableEq, Repr

inductive Request
  | run (i : Invocation)
  | help (topic : Topic)
  deriving DecidableEq, Repr

namespace UsageError

def message : UsageError → String
  | unexpected argument => "error: unexpected argument '" ++ argument ++ "' found"
  | valueless option => "error: a value is required for '--" ++ option ++ "' but none was supplied"
  | emptyValue option => "error: the value of '--" ++ option ++ "' is empty"
  | repeated option => "error: the argument '--" ++ option ++ "' cannot be used multiple times"
  | absent option => "error: the argument '--" ++ option ++ "' was not provided"
  | noCommand => "error: a command is required"
  | unknownCommand name => "error: unrecognized subcommand '" ++ name ++ "'"

end UsageError

/-- Options as they were found. The value of the last one waits if it was an argument of its own: it
is looked at when the next option comes, or else behind all arguments. -/
structure Gathered where
  values : List (String × String)
  waiting : Option (OptionSpec × String)
  deriving DecidableEq, Repr

/-- Options and what follows them. -/
inductive Scanned
  | options (gathered : Gathered) (rest : List String)
  | help
  deriving DecidableEq, Repr

/-- Whether an argument looks like an option, so that it cannot be the value of one. -/
def isOptionLike (argument : String) : Bool :=
  match argument.toList with
  | '-' :: _ :: _ => true
  | _ => false

/-- Notes the value of an option. -/
def note (spec : OptionSpec) (value : String) (found : List (String × String)) :
    Except UsageError (List (String × String)) :=
  if spec.path && value.isEmpty then .error (.emptyValue spec.long)
  else if found.any (·.1 == spec.long) then .error (.repeated spec.long)
  else .ok (found ++ [(spec.long, value)])

/-- The values with the one that waits. -/
def Gathered.settled (g : Gathered) : Except UsageError (List (String × String)) :=
  match g.waiting with
  | some (spec, value) => note spec value g.values
  | none => .ok g.values

/-- What an argument is: an option with its value or one that follows, a request for help, the
mark behind which there are no options, or a word. -/
inductive Argument
  | option (spec : OptionSpec) (value : Option String)
  | help
  | mark
  | word
  | unknown
  deriving DecidableEq, Repr

/-- A long option, with a value behind an equals sign or without. -/
def longArgument (specs : List OptionSpec) (s : List Char) : Argument :=
  let name := String.ofList (s.takeWhile (· != '='))
  let value := match s.dropWhile (· != '=') with
    | _ :: rest => some (String.ofList rest)
    | [] => none
  if name == "help" && value.isNone then .help
  else match specs.find? (·.long == name) with
    | some spec => .option spec value
    | none => .unknown

/-- A short option, with a value behind it or without; one equals sign is not part of it. -/
def shortArgument (specs : List OptionSpec) (c : Char) (rest : List Char) : Argument :=
  if c == 'h' then .help
  else match specs.find? (·.short == c) with
    | none => .unknown
    | some spec => match rest with
      | [] => .option spec none
      | '=' :: value => .option spec (some (String.ofList value))
      | value => .option spec (some (String.ofList value))

def argumentOf (specs : List OptionSpec) (argument : String) : Argument :=
  match argument.toList with
  | ['-', '-'] => .mark
  | '-' :: '-' :: s => longArgument specs s
  | '-' :: c :: rest => shortArgument specs c rest
  | _ => .word

/-- Takes the options in front of the first word. -/
def scan (specs : List OptionSpec) (g : Gathered) : List String → Except UsageError Scanned
  | [] => .ok (.options g [])
  | argument :: rest =>
    match argumentOf specs argument with
    | .word => .ok (.options g (argument :: rest))
    | .help => g.settled.map fun _ => .help
    | .unknown => .error (.unexpected argument)
    | .mark => match rest with
      | [] => .ok (.options g [])
      | next :: _ => .error (.unexpected next)
    | .option spec (some value) => do
      let values ← note spec value (← g.settled)
      scan specs ⟨values, none⟩ rest
    | .option spec none =>
      match rest with
      | [] => .error (.valueless spec.long)
      | value :: rest =>
        if isOptionLike value then .error (.valueless spec.long)
        else do
          let values ← g.settled
          scan specs ⟨values, some (spec, value)⟩ rest

def sourceOption : OptionSpec := ⟨'s', "source", false⟩

/-- The options of the program itself. -/
def programOptions : List OptionSpec := [⟨'c', "config", false⟩, ⟨'t', "templates", true⟩]

def renderOptions : List OptionSpec :=
  [sourceOption, ⟨'T', "target", false⟩, ⟨'l', "locale", false⟩, ⟨'d', "data", true⟩]

def value? (found : List (String × String)) (option : String) : Option String :=
  (found.find? (·.1 == option)).map Prod.snd

def required (found : List (String × String)) (option : String) : Except UsageError String :=
  match value? found option with
  | some value => .ok value
  | none => .error (.absent option)

/-- A command from its options; no word may follow them. -/
def command (specs : List OptionSpec) (topic : Topic) (arguments : List String)
    (build : List (String × String) → Except UsageError Command) :
    Except UsageError (Command ⊕ Topic) := do
  match ← scan specs ⟨[], none⟩ arguments with
  | .help => .ok (.inr topic)
  | .options _ (word :: _) => .error (.unexpected word)
  | .options g [] => do
    let found ← g.settled
    (build found).map .inl

/-- The topic that words behind the command `help` name. -/
def helpTopic : List String → Except UsageError Topic
  | [] => .ok .program
  | ["check"] => .ok .check
  | ["targets"] => .ok .targets
  | ["render"] => .ok .render
  | ["help"] => .ok .help
  | name :: rest =>
    if name ∈ ["check", "targets", "render", "help"] then
      .error (.unknownCommand (rest.headD ""))
    else .error (.unknownCommand name)

/-- A command by its name and what follows it. -/
def commandOf (name : String) (arguments : List String) :
    Except UsageError (Command ⊕ Topic) :=
  match name with
  | "check" => command [] .check arguments fun _ => .ok .check
  | "targets" => command [sourceOption] .targets arguments fun found =>
      .ok (.targets (value? found "source"))
  | "render" => command renderOptions .render arguments fun found => do
      let source ← required found "source"
      let target ← required found "target"
      let data ← required found "data"
      .ok (.render source target ((value? found "locale").getD Locale.standard.tag) data)
  | "help" => (helpTopic arguments).map .inr
  | name => .error (.unknownCommand name)

/-- What the arguments ask for. -/
def parse (arguments : List String) : Except UsageError Request := do
  match ← scan programOptions ⟨[], none⟩ arguments with
  | .help => .ok (.help .program)
  | .options _ [] => .error .noCommand
  | .options g (name :: rest) =>
    match ← commandOf name rest with
    | .inl c => do
      let found ← g.settled
      .ok (.run ⟨value? found "config", value? found "templates", c⟩)
    | .inr topic => .ok (.help topic)

namespace Topic

/-- The help on a topic. -/
def text : Topic → String
  | program => "Validate and render document templates\n\n" ++
    "Usage: barber [OPTIONS] <COMMAND>\n\n" ++
    "Commands:\n" ++
    "  check    Build the Barbershop and report every problem\n" ++
    "  targets  List the Barbers, or the Documents reachable from one DocumentData\n" ++
    "  render   Render a Document from a JSON data file\n" ++
    "  help     Print this message or the help of the given subcommand(s)\n\n" ++
    "Options:\n" ++
    "  -c, --config <CONFIG>        Config file (defaults to barber.toml lookup)\n" ++
    "  -t, --templates <TEMPLATES>  Manifest directory (overrides the configured templates dir)\n" ++
    "  -h, --help                   Print help\n"
  | check => "Build the Barbershop and report every problem\n\n" ++
    "Usage: barber check\n\n" ++
    "Options:\n" ++
    "  -h, --help  Print help\n"
  | targets => "List the Barbers, or the Documents reachable from one DocumentData\n\n" ++
    "Usage: barber targets [OPTIONS]\n\n" ++
    "Options:\n" ++
    "  -s, --source <SOURCE>  DocumentData name\n" ++
    "  -h, --help             Print help\n"
  | render => "Render a Document from a JSON data file\n\n" ++
    "Usage: barber render [OPTIONS] --source <SOURCE> --target <TARGET> --data <DATA>\n\n" ++
    "Options:\n" ++
    "  -s, --source <SOURCE>  DocumentData name\n" ++
    "  -T, --target <TARGET>  Document name\n" ++
    "  -l, --locale <LOCALE>  Requested locale [default: en-US]\n" ++
    "  -d, --data <DATA>      JSON file with the DocumentData\n" ++
    "  -h, --help             Print help\n"
  | help => "Print this message or the help of the given subcommand(s)\n\n" ++
    "Usage: barber help [COMMAND]...\n\n" ++
    "Arguments:\n" ++
    "  [COMMAND]...  Print help for the subcommand(s)\n"

end Topic
end Letterbook.CommandLine
