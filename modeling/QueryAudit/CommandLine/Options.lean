/-! Command-line arguments. Arguments are taken from left to right: the first one that cannot be
understood is an error, and a request for help or for the version is granted as soon as it is
reached. -/
namespace QueryAudit.CommandLine

/-- How diagnostics are printed. -/
inductive Format where
  | human
  | json
  deriving DecidableEq

namespace Format

def ofName? : String → Option Format
  | "human" => some human
  | "json" => some json
  | _ => none

end Format

/-- Arguments of a check. -/
structure Options where
  /-- Paths of unit dumps. -/
  units : List String := []
  config : Option String := none
  /-- `none` when it is not given; diagnostics are then printed for people. -/
  format : Option Format := none
  trace : Bool := false
  deriving DecidableEq

/-- What is asked for. -/
inductive Request where
  | help
  | version
  | check (options : Options)
  deriving DecidableEq

/-- Why the arguments cannot be understood. -/
inductive UsageError where
  | unknownOption (option : String)
  | missingValue (option : String)
  | unexpectedValue (option : String)
  | repeated (option : String)
  | unknownFormat (format : String)
  | emptyPath
  | noUnits
  deriving DecidableEq

namespace UsageError

def message : UsageError → String
  | unknownOption option => s!"unexpected argument '{option}' found"
  | missingValue option => s!"a value is required for '{option}' but none was supplied"
  | unexpectedValue option => s!"no value is expected for '{option}'"
  | repeated option => s!"the argument '{option}' cannot be used multiple times"
  | unknownFormat format => s!"invalid value '{format}' for '--format', expected human or json"
  | emptyPath => "a path must not be empty"
  | noUnits => "no unit dump was given"

end UsageError

namespace Options

def addUnit (options : Options) (path : String) : Except UsageError Options :=
  if path.isEmpty then .error .emptyPath
  else .ok { options with units := options.units ++ [path] }

def setConfig (options : Options) (path : String) : Except UsageError Options :=
  if options.config.isSome then .error (.repeated "--config")
  else if path.isEmpty then .error .emptyPath
  else .ok { options with config := some path }

def setFormat (options : Options) (name : String) : Except UsageError Options :=
  if options.format.isSome then .error (.repeated "--format")
  else match Format.ofName? name with
    | none => .error (.unknownFormat name)
    | some format => .ok { options with format := some format }

def setTrace (options : Options) : Except UsageError Options :=
  if options.trace then .error (.repeated "--trace") else .ok { options with trace := true }

end Options

/-- One argument by its form. -/
inductive Argument where
  /-- A path, or the value of the option before it. -/
  | plain (text : String)
  /-- An option by its long name, with the value behind an equals sign. -/
  | long (name : String) (value : Option String)
  /-- An option by its letter. -/
  | short (letter : Char)
  /-- Two dashes, after which every argument is a path. -/
  | stop

namespace Argument

def ofString (text : String) : Argument :=
  match text.toList with
  | ['-', '-'] => stop
  | '-' :: '-' :: rest =>
    match rest.span (· != '=') with
    | (name, []) => long (String.ofList name) none
    | (name, _ :: value) => long (String.ofList name) (some (String.ofList value))
  | '-' :: letter :: _ => short letter
  | _ => plain text

end Argument

/-- The value of an option, behind an equals sign or in the next argument, and what follows. -/
def valueOf (option : String) (value : Option String) (rest : List String) :
    Except UsageError (String × List String) :=
  match value, rest with
  | some value, rest => .ok (value, rest)
  | none, [] => .error (.missingValue option)
  | none, next :: rest =>
    match Argument.ofString next with
    | .plain value => .ok (value, rest)
    | _ => .error (.missingValue option)

theorem valueOf_length {option : String} {value : Option String} {rest left : List String}
    {found : String} (taken : valueOf option value rest = .ok (found, left)) :
    left.length ≤ rest.length := by
  unfold valueOf at taken
  split at taken
  · cases taken
    exact Nat.le_refl _
  · cases taken
  · split at taken
    · cases taken
      simp
    · cases taken

/-- A check needs at least one unit. -/
def finish (options : Options) : Except UsageError Request :=
  if options.units.isEmpty then .error .noUnits else .ok (.check options)

/-- Takes arguments in turn, after the given options. -/
def parseFrom (options : Options) (arguments : List String) : Except UsageError Request :=
  match arguments with
  | [] => finish options
  | argument :: rest =>
    match Argument.ofString argument with
    | .plain path =>
      match options.addUnit path with
      | .error cause => .error cause
      | .ok options => parseFrom options rest
    | .stop => rest.foldlM Options.addUnit options >>= finish
    | .short 'h' => .ok .help
    | .short 'V' => .ok .version
    | .short _ => .error (.unknownOption argument)
    | .long "help" none => .ok .help
    | .long "version" none => .ok .version
    | .long "trace" none =>
      match options.setTrace with
      | .error cause => .error cause
      | .ok options => parseFrom options rest
    | .long "config" value =>
      match taken : valueOf "--config" value rest with
      | .error cause => .error cause
      | .ok (path, left) =>
        match options.setConfig path with
        | .error cause => .error cause
        | .ok options =>
          have := valueOf_length taken
          parseFrom options left
    | .long "format" value =>
      match taken : valueOf "--format" value rest with
      | .error cause => .error cause
      | .ok (name, left) =>
        match options.setFormat name with
        | .error cause => .error cause
        | .ok options =>
          have := valueOf_length taken
          parseFrom options left
    | .long name (some _) =>
      if name ∈ ["help", "version", "trace"] then .error (.unexpectedValue ("--" ++ name))
      else .error (.unknownOption argument)
    | .long _ none => .error (.unknownOption argument)
termination_by arguments.length

/-- What the arguments of the program ask for. -/
def parse (arguments : List String) : Except UsageError Request :=
  parseFrom {} arguments

/-- The answer to a request for the version. -/
def versionText : String :=
  "linq-check 0.1.0\n"

def usageLine : String :=
  "Usage: linq-check [OPTIONS] <UNITS>...\n"

/-- The answer to a request for help. -/
def helpText : String :=
  "Find queries a remote query provider cannot translate\n\n" ++ usageLine ++
    "\nArguments:\n" ++
    "  <UNITS>...  Resolved unit dumps (JSON) to check\n" ++
    "\nOptions:\n" ++
    "      --config <CONFIG>  Analyzer configuration (JSON); omitted fields keep their defaults\n" ++
    "      --format <FORMAT>  Output format for diagnostics " ++
    "[default: human] [possible values: human, json]\n" ++
    "      --trace            Emit tracing spans (JSON) on stderr\n" ++
    "  -h, --help             Print help\n" ++
    "  -V, --version          Print version\n"

end QueryAudit.CommandLine
