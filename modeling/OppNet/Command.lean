/-!
# OppNet.Command

What can be asked for on the command line, and how it is spelled.

- Options come after the name of the command, in any order and once each. A value is attached with
  `=`, follows a short option directly, or is the next argument.
- `Request.ofArguments` reads the arguments; what it refuses is a `misuse`.
-/

namespace OppNet

inductive Command where
  /-- Writes a scenario to start from. -/
  | generate (output : String)
  /-- Runs a scenario, on request with every line of its journal. -/
  | run (config : String) (verbose : Bool) (output : Option String)
  /-- Runs a scenario under all policies. -/
  | compare (config : String) (output : Option String)
  deriving DecidableEq, Repr

inductive Request where
  | command (c : Command)
  | help
  | version
  /-- The arguments make no sense. -/
  | misuse
  deriving DecidableEq, Repr

inductive Setting where
  | config
  | output
  | verbose
  | help
  deriving DecidableEq, Repr

namespace Setting

def takesValue : Setting → Bool
  | config | output => true
  | verbose | help => false

def longName : Setting → String
  | config => "config"
  | output => "output"
  | verbose => "verbose"
  | help => "help"

def letter? : Setting → Option Char
  | config => none
  | output => some 'o'
  | verbose => some 'v'
  | help => some 'h'

end Setting

/-- Settings with their values; the value of a switch is empty. -/
abbrev Settings := List (Setting × String)

inductive Options where
  /-- The last option may still be waiting for its value. -/
  | reading (given : Settings) (waiting : Option Setting)
  /-- After `--`, where no option may come any more. -/
  | closed (given : Settings)
  /-- Help was asked for, and the rest does not matter. -/
  | help
  | misuse
  deriving DecidableEq, Repr

namespace Options

/-- A setting with its value, unless it was given before or the value is empty. -/
def accept (given : Settings) (s : Setting) (value : String) : Options :=
  if (s.takesValue && value.isEmpty) || given.any (·.1 = s) then misuse
  else reading ((s, value) :: given) none

/-- The letters of short options, run together. -/
def letters (allowed : List Setting) (given : Settings) : List Char → Options
  | [] => reading given none
  | c :: rest =>
    match allowed.find? (·.letter? = some c) with
    | none => misuse
    | some .help => help
    | some s =>
      if s.takesValue then
        match rest with
        | [] => reading given (some s)
        | '=' :: value => accept given s (String.ofList value)
        | value => accept given s (String.ofList value)
      else if given.any (·.1 = s) then misuse
      else letters allowed ((s, "") :: given) rest

def long (allowed : List Setting) (given : Settings) (option : List Char) : Options :=
  let name := String.ofList (option.takeWhile (· ≠ '='))
  let attached := option.dropWhile (· ≠ '=')
  match allowed.find? (·.longName = name) with
  | none => misuse
  | some s =>
    match s, attached with
    | .help, [] => help
    | s, [] => if s.takesValue then reading given (some s) else accept given s ""
    | s, _ :: value => if s.takesValue then accept given s (String.ofList value) else misuse

def step (allowed : List Setting) (o : Options) (argument : String) : Options :=
  match o, argument.toList with
  | reading _ (some _), '-' :: _ :: _ => misuse
  | reading given (some s), _ => accept given s argument
  | reading given none, ['-', '-'] => closed given
  | reading given none, '-' :: '-' :: option => long allowed given option
  | reading given none, '-' :: c :: rest => letters allowed given (c :: rest)
  | reading _ none, _ => misuse
  | closed _, _ => misuse
  | help, _ => help
  | misuse, _ => misuse

/-- The settings in the arguments, or the request to answer instead. -/
def ofArguments (allowed : List Setting) (arguments : List String) : Except Request Settings :=
  match arguments.foldl (step allowed) (reading [] none) with
  | reading given none | closed given => .ok given
  | help => .error .help
  | reading _ (some _) | misuse => .error .misuse

end Options

namespace Command

def names : List String := ["gen-config", "run", "compare"]

def allowed (name : String) : List Setting :=
  match name with
  | "gen-config" => [.output, .help]
  | "run" => [.config, .verbose, .output, .help]
  | _ => [.config, .output, .help]

/-- The command of a name with its settings, unless a necessary one is missing. -/
def ofSettings? (name : String) (given : Settings) : Option Command :=
  let value := fun s => given.lookup s
  match name with
  | "gen-config" => (value .output).map generate
  | "run" => (value .config).map fun c => run c (value .verbose).isSome (value .output)
  | "compare" => (value .config).map fun c => compare c (value .output)
  | _ => none

end Command

namespace Request

def ofCommand (name : String) (options : List String) : Request :=
  match Options.ofArguments (Command.allowed name) options with
  | .error request => request
  | .ok given => ((Command.ofSettings? name given).map command).getD misuse

def hasHelp : List String → Bool
  | [] => true
  | [topic] => topic = "help" || Command.names.contains topic
  | _ => false

def ofArguments : List String → Request
  | [] => misuse
  | first :: rest =>
    if Command.names.contains first then ofCommand first rest
    else if first = "help" then (if hasHelp rest then help else misuse)
    else if first = "--help" then help
    else if first = "--version" then version
    else
      match first.toList with
      | '-' :: 'h' :: _ => help
      | '-' :: 'V' :: _ => version
      | _ => misuse

end Request

end OppNet
