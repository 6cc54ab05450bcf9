/-
The arguments of the command line. A subcommand takes one text and options, in any order; after `--`
everything is text. Nothing may be given twice, left out or left over.
-/

namespace Z80Asm.Cli

/-- The two forms of output. -/
inductive Format
  | text | json
  deriving DecidableEq, Repr

/-- The subcommands that look at one line. -/
inductive LineAction
  | tokens | tree | encode
  deriving DecidableEq, Repr

/-- What `assemble` is asked to do. -/
structure AssembleOptions where
  input : String
  out : Option String
  format : Format
  keepGoing : Bool
  showBytes : Bool
  deriving DecidableEq, Repr

/-- What the program is asked to do. -/
inductive Command
  | assemble (options : AssembleOptions)
  | line (action : LineAction) (text : String) (format : Format)
  | help
  | version
  deriving DecidableEq, Repr

/-- Why arguments make no command. -/
inductive UsageError
  | missingSubcommand
  | unknownSubcommand (name : String)
  | unexpectedArgument (argument : String)
  | missingValue (option : String)
  | invalidValue (option : String) (value : String)
  | repeated (option : String)
  | missingText
  deriving DecidableEq, Repr

/-- The wording of a usage error. -/
def UsageError.message : UsageError → String
  | .missingSubcommand => "a subcommand is required"
  | .unknownSubcommand name => String.join ["unrecognized subcommand '", name, "'"]
  | .unexpectedArgument argument => String.join ["unexpected argument '", argument, "' found"]
  | .missingValue option => String.join ["a value is required for '", option, "' but none was supplied"]
  | .invalidValue option value => String.join ["invalid value '", value, "' for '", option, "'"]
  | .repeated option => String.join ["the argument '", option, "' cannot be used multiple times"]
  | .missingText => "a required argument was not provided"

/-! ## Options -/

/-- The options that take a value. -/
inductive Setting
  | out | format
  deriving DecidableEq, Repr

/-- The options that take none. -/
inductive Flag
  | keepGoing | showBytes
  deriving DecidableEq, Repr

/-- How a setting is written. -/
def Setting.name : Setting → String
  | .out => "--out"
  | .format => "--format"

/-- How a flag is written. -/
def Flag.name : Flag → String
  | .keepGoing => "--keep-going"
  | .showBytes => "--show-bytes"

/-- The form of output that a value names. -/
def Format.ofName? (name : String) : Option Format :=
  if name = "text" then some .text else if name = "json" then some .json else none

/-- What a subcommand takes: options, and a text that is the name of a file or a line. -/
structure Options where
  settings : List Setting
  flags : List Flag
  textIsFile : Bool
  deriving DecidableEq, Repr

/-- What `assemble` takes. -/
def Options.assemble : Options := ⟨[.out, .format], [.keepGoing, .showBytes], true⟩

/-- What the other subcommands take. -/
def Options.line : Options := ⟨[.format], [], false⟩

/-! ## What is given -/

/-- What the arguments of a subcommand have said so far. -/
structure Given where
  text : Option String
  out : Option String
  format : Option Format
  flags : List Flag
  deriving DecidableEq, Repr

namespace Given

/-- Nothing said. -/
def nothing : Given := ⟨none, none, none, []⟩

/-- The one text. The name of a file is not empty. -/
def setText (g : Given) (options : Options) (text : String) : Except UsageError Given :=
  if g.text.isSome then .error (.unexpectedArgument text)
  else if options.textIsFile && text.isEmpty then .error (.missingValue "<FILE>")
  else .ok { g with text := some text }

/-- The name of the file to write, which is not empty. -/
def setOut (g : Given) (value : String) : Except UsageError Given :=
  if g.out.isSome then .error (.repeated Setting.out.name)
  else if value.isEmpty then .error (.missingValue Setting.out.name)
  else .ok { g with out := some value }

/-- The form of output. -/
def setFormat (g : Given) (value : String) : Except UsageError Given :=
  if g.format.isSome then .error (.repeated Setting.format.name)
  else
    match Format.ofName? value with
    | some format => .ok { g with format := some format }
    | none => .error (.invalidValue Setting.format.name value)

/-- The value of a setting. -/
def set (g : Given) (setting : Setting) (value : String) : Except UsageError Given :=
  match setting with
  | .out => g.setOut value
  | .format => g.setFormat value

/-- A flag. -/
def raise (g : Given) (flag : Flag) : Except UsageError Given :=
  if g.flags.contains flag then .error (.repeated flag.name) else .ok { g with flags := flag :: g.flags }

end Given

/-! ## One argument after the other -/

/-- Whether an argument is written like an option. A dash alone is a text. -/
def looksLikeOption (argument : String) : Bool :=
  match argument.toList with
  | ['-'] => false
  | '-' :: _ => true
  | _ => false

/-- An option's name, and the value after its equals sign, if there is one. -/
def splitOption (argument : String) : String × Option String :=
  let name := argument.toList.takeWhile (· != '=')
  match argument.toList.drop name.length with
  | [] => (String.ofList name, none)
  | _ :: value => (String.ofList name, some (String.ofList value))

/-- Whether an argument asks for help. -/
def asksForHelp (argument : String) : Bool :=
  argument == "--help" || argument.toList.take 2 == ['-', 'h']

/-- Texts only, as after `--`. -/
def readTexts (options : Options) (g : Given) : List String → Except UsageError Given
  | [] => .ok g
  | argument :: rest => do readTexts options (← g.setText options argument) rest

/-- The arguments of a subcommand; nothing, if they ask for help. The value of a setting follows an equals
sign or is the next argument, unless that is written like an option. -/
def readArguments (options : Options) (g : Given) : List String → Except UsageError (Option Given)
  | [] => .ok (some g)
  | argument :: rest =>
    if argument = "--" then (readTexts options g rest).map some
    else if !looksLikeOption argument then do readArguments options (← g.setText options argument) rest
    else if asksForHelp argument then .ok none
    else
      let (name, attached) := splitOption argument
      match options.flags.find? (·.name == name), options.settings.find? (·.name == name) with
      | some flag, _ =>
        if attached.isSome then .error (.unexpectedArgument argument)
        else do readArguments options (← g.raise flag) rest
      | none, none => .error (.unexpectedArgument argument)
      | none, some setting =>
        match attached, rest with
        | some value, rest => do readArguments options (← g.set setting value) rest
        | none, [] => .error (.missingValue name)
        | none, value :: rest =>
          if looksLikeOption value then .error (.missingValue name)
          else do readArguments options (← g.set setting value) rest
termination_by arguments => arguments.length

/-! ## Commands -/

/-- The command of a subcommand on one line. -/
def lineCommand (action : LineAction) (arguments : List String) : Except UsageError Command := do
  match ← readArguments .line .nothing arguments with
  | none => return .help
  | some g =>
    match g.text with
    | none => throw .missingText
    | some text => return .line action text (g.format.getD .text)

/-- The command of `assemble`. -/
def assembleCommand (arguments : List String) : Except UsageError Command := do
  match ← readArguments .assemble .nothing arguments with
  | none => return .help
  | some g =>
    match g.text with
    | none => throw .missingText
    | some input =>
      return .assemble
        ⟨input, g.out, g.format.getD .text, g.flags.contains .keepGoing, g.flags.contains .showBytes⟩

/-- The names of the subcommands. -/
def subcommands : List String := ["assemble", "tokens", "tree", "encode", "help"]

/-- The command that arguments ask for. Before the subcommand only help or the version can be asked for. -/
def Command.ofArguments : List String → Except UsageError Command
  | [] => .error .missingSubcommand
  | "assemble" :: rest => assembleCommand rest
  | "tokens" :: rest => lineCommand .tokens rest
  | "tree" :: rest => lineCommand .tree rest
  | "encode" :: rest => lineCommand .encode rest
  | ["help"] => .ok .help
  | ["help", name] => if subcommands.contains name then .ok .help else .error (.unknownSubcommand name)
  | argument :: _ =>
    if asksForHelp argument then .ok .help
    else if argument == "--version" || argument.toList.take 2 == ['-', 'V'] then .ok .version
    else if looksLikeOption argument then .error (.unexpectedArgument argument)
    else .error (.unknownSubcommand argument)

end Z80Asm.Cli
