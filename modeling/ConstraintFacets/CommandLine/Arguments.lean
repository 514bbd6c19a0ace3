/-! # Arguments

The arguments of a run name a command, its options and its file. Options have a
word, and some a letter; letters can be joined, and a value can be joined to its
option or follow it (`ConstraintFacets.Level.scan`). Some options belong to every
command and can also stand before it. Whatever is not understood is misuse of the
program; a request for the version or for help takes effect where it stands, if
nothing before it is wrong (`ConstraintFacets.Parsed.ofArguments`).
-/

namespace ConstraintFacets

/-- The options of all commands. -/
inductive CommandOption where
  | config
  | verbose
  | ignoreGroup
  | required
  | json
  | base
  | package
  | itemType
  | stringLike
  | xsd
  | help
  | version
deriving DecidableEq

namespace CommandOption

/-- The word of an option, which stands behind two hyphens. -/
def word : CommandOption → String
  | config => "config"
  | verbose => "verbose"
  | ignoreGroup => "ignore-group"
  | required => "required"
  | json => "json"
  | base => "base"
  | package => "package"
  | itemType => "item-type"
  | stringLike => "string-like"
  | xsd => "xsd"
  | help => "help"
  | version => "version"

/-- The letter of an option, which stands behind one hyphen. -/
def letter? : CommandOption → Option Char
  | config => some 'c'
  | verbose => some 'v'
  | ignoreGroup => some 'g'
  | json => some 'j'
  | base => some 'b'
  | package => some 'p'
  | itemType => some 't'
  | help => some 'h'
  | version => some 'V'
  | required | stringLike | xsd => none

/-- Whether an option takes a value. -/
def takesValue : CommandOption → Bool
  | config | ignoreGroup | base | package | itemType => true
  | _ => false

/-- Whether an option may be given more than once. -/
def mayRepeat : CommandOption → Bool
  | verbose | ignoreGroup => true
  | _ => false

/-- Whether the value of an option is a path, which cannot be empty. -/
def takesPath : CommandOption → Bool
  | config | package => true
  | _ => false

end CommandOption

/-- The commands. -/
inductive Command where
  | constraints
  | restrict
  | objc
deriving DecidableEq

/-- The name of a command. -/
def Command.name : Command → String
  | constraints => "constraints"
  | restrict => "restrict"
  | objc => "objc"

/-- The command with a given name. -/
def Command.ofName? (name : String) : Option Command :=
  [constraints, restrict, objc].find? fun command => command.name = name

/-- A part of the arguments: before the command, or behind it. -/
inductive Level where
  | outer
  | inner (command : Command)
deriving DecidableEq

/-- How the scan of a level ends. -/
inductive Ending where
  /-- All arguments are used. -/
  | finished
  /-- A name stands where a command is expected. -/
  | command (name : String) (rest : List String)
  | help
  | version
  | misuse
deriving DecidableEq

/-- What is found on a level. -/
structure Scan where
  /-- The options with their values, in order; the empty text if they take none. -/
  options : List (CommandOption × String) := []
  /-- The arguments that are not options, in order. -/
  operands : List String := []
  /-- How the scan ends. -/
  ending : Ending
deriving DecidableEq

/-- What one argument tells. -/
structure ArgumentReading where
  /-- The options that are complete. -/
  options : List (CommandOption × String) := []
  /-- The option whose value is to follow. -/
  awaits : Option CommandOption := none
  /-- How the scan ends, if it does. -/
  stops : Option Ending := none
deriving DecidableEq

namespace Level

/-- The options that can stand on a level. -/
def options : Level → List CommandOption
  | outer => [.config, .verbose, .help, .version]
  | inner .constraints => [.config, .verbose, .help, .ignoreGroup, .required, .json]
  | inner .restrict =>
    [.config, .verbose, .help, .base, .package, .itemType, .stringLike, .xsd]
  | inner .objc => [.config, .verbose, .help]

/-- The reading of an option that takes no value. -/
def readFlag (option : CommandOption) : ArgumentReading :=
  match option with
  | .help => { stops := some .help }
  | .version => { stops := some .version }
  | option => { options := [(option, "")] }

/-- The reading of an option by its word, perhaps with a value joined to it. -/
def readWord (level : Level) (word : String) (value : Option String) : ArgumentReading :=
  match level.options.find? fun option => option.word = word, value with
  | none, _ => { stops := some .misuse }
  | some option, some value =>
    if option.takesValue then { options := [(option, value)] } else { stops := some .misuse }
  | some option, none =>
    if option.takesValue then { awaits := some option } else readFlag option

/-- A value that is joined to a letter, perhaps by an equals sign. -/
def joinedValue : List Char → String
  | '=' :: value => String.ofList value
  | value => String.ofList value

/-- The reading of joined letters. -/
def readLetters (level : Level) : List Char → ArgumentReading
  | [] => {}
  | letter :: rest =>
    match level.options.find? fun option => option.letter? = some letter with
    | none => { stops := some .misuse }
    | some option =>
      if option.takesValue then
        if rest = [] then { awaits := some option }
        else { options := [(option, joinedValue rest)] }
      else
        let first := readFlag option
        if first.stops.isSome then first
        else
          let others := level.readLetters rest
          { others with options := first.options ++ others.options }

/-- The word and the value of an option that is written with two hyphens. -/
def splitWord (text : List Char) : String × Option String :=
  match text.dropWhile (· != '=') with
  | [] => (String.ofList text, none)
  | _ :: value => (String.ofList (text.takeWhile (· != '=')), some (String.ofList value))

/-- Whether an argument is written like an option, and so cannot be a value. A
single hyphen is not. -/
def looksLikeOption (text : String) : Bool :=
  match text.toList with
  | '-' :: _ :: _ => true
  | _ => false

/-- Puts options before those of a scan. -/
def withOptions (options : List (CommandOption × String)) (scan : Scan) : Scan :=
  { scan with options := options ++ scan.options }

/-- What is found in the arguments of a level. Behind two hyphens alone, nothing is
an option. -/
def scan (level : Level) : List String → Scan
  | [] => { ending := .finished }
  | argument :: rest =>
    match argument.toList with
    | ['-', '-'] => { operands := rest, ending := .finished }
    | '-' :: second :: others =>
      let reading :=
        if second = '-' then
          let parts := splitWord others
          level.readWord parts.1 parts.2
        else level.readLetters (second :: others)
      match reading.stops, reading.awaits, rest with
      | some ending, _, _ => { options := reading.options, ending }
      | none, none, rest => withOptions reading.options (level.scan rest)
      | none, some option, value :: rest =>
        if looksLikeOption value then { ending := .misuse }
        else withOptions (reading.options ++ [(option, value)]) (level.scan rest)
      | none, some _, [] => { ending := .misuse }
    | _ =>
      match level with
      | outer => { ending := .command argument rest }
      | inner command =>
        let others := (inner command).scan rest
        { others with operands := argument :: others.operands }

end Level

namespace Scan

/-- The values of an option, in order. -/
def values (scan : Scan) (option : CommandOption) : List String :=
  (scan.options.filter fun entry => entry.1 = option).map Prod.snd

/-- The value of an option that is given at most once. -/
def value? (scan : Scan) (option : CommandOption) : Option String :=
  (scan.values option).head?

/-- Whether an option is given. -/
def has (scan : Scan) (option : CommandOption) : Bool :=
  !(scan.values option).isEmpty

/-- Whether the options and operands of a scan can stand together: no option is
repeated that may not be, no path is empty, and there are no more operands than
expected. -/
def isSound (scan : Scan) (operands : Nat) : Bool :=
  ((scan.options.map Prod.fst).filter fun option => !option.mayRepeat).Nodup &&
    scan.options.all (fun entry => !(entry.1.takesPath && entry.2.isEmpty)) &&
    scan.operands.length ≤ operands && scan.operands.all fun operand => !operand.isEmpty

end Scan

/-- What a run is asked to do. -/
inductive Request where
  /-- List the constraints of a declaration. -/
  | constraints (declaration : String) (ignoredGroups : List String) (required json : Bool)
  /-- Restrict a base type by the constraints of a declaration. -/
  | restrict (declaration : String) (base package itemType : Option String)
      (stringLike xsd : Bool)
  /-- Check type definitions against the Objective-C client. -/
  | objc (definitions : String)
deriving DecidableEq

/-- A request with the settings file to use. -/
structure Invocation where
  /-- The path of the settings file. -/
  config : Option String
  /-- What is asked for. -/
  request : Request
deriving DecidableEq

/-- What the arguments come to. -/
inductive Parsed where
  | run (invocation : Invocation)
  | showVersion
  | showHelp
  | misuse
deriving DecidableEq

namespace Parsed

/-- The request of a command with its operand and its options. -/
def request (command : Command) (operand : String) (scan : Scan) : Request :=
  match command with
  | .constraints =>
    .constraints operand (scan.values .ignoreGroup) (scan.has .required) (scan.has .json)
  | .restrict =>
    .restrict operand (scan.value? .base) (scan.value? .package) (scan.value? .itemType)
      (scan.has .stringLike) (scan.has .xsd)
  | .objc => .objc operand

/-- What the arguments behind a command come to. Options that belong to every
command count where they stand last. -/
def ofCommand (outer : Scan) (command : Command) (arguments : List String) : Parsed :=
  let inner := (Level.inner command).scan arguments
  if inner.isSound 1 then
    match inner.ending, inner.operands with
    | .help, _ => showHelp
    | .finished, [operand] =>
      run
        { config := (inner.value? .config).or (outer.value? .config)
          request := request command operand inner }
    | _, _ => misuse
  else misuse

/-- What the arguments of a run come to. -/
def ofArguments (arguments : List String) : Parsed :=
  let outer := Level.outer.scan arguments
  if outer.isSound 0 then
    match outer.ending with
    | .finished => misuse
    | .misuse => misuse
    | .help => showHelp
    | .version => showVersion
    | .command name rest =>
      match Command.ofName? name with
      | some command => ofCommand outer command rest
      | none => if name = "help" then ofHelp rest else misuse
  else misuse
where
  /-- What a request for help comes to: at most one command can be asked about. -/
  ofHelp : List String → Parsed
    | [] => showHelp
    | [name] => if (Command.ofName? name).isSome || name = "help" then showHelp else misuse
    | _ => misuse

end Parsed

end ConstraintFacets
