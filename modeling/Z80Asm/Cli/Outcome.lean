/-
What a run of the program shows and leaves behind. Reading and writing files is left to the caller: the
content of the source comes in as a value, and the image to be written goes out as one.
-/
import Z80Asm.Cli.Arguments
import Z80Asm.Cli.Libraries
import Z80Asm.Statement.Dump

namespace Z80Asm.Cli

/-- Why a file cannot be read or written. -/
inductive FileError
  | notFound
  | notText
  | other (message : String)
  deriving DecidableEq, Repr

/-- The wording of a file error. -/
def FileError.message : FileError → String
  | .notFound => "No such file or directory (os error 2)"
  | .notText => "stream did not contain valid UTF-8"
  | .other message => message

/-- The text of a file, whose bytes have to be UTF-8. -/
def decodeText (bytes : ByteArray) : Except FileError String :=
  match String.fromUTF8? bytes with
  | some text => .ok text
  | none => .error .notText

/-- A run of the program: what it prints, its exit code, and a file to write after printing. -/
@[ext]
structure Outcome where
  stdout : String
  stderr : List String
  exit : UInt8
  file : Option (String × List UInt8)
  deriving DecidableEq, Repr

namespace Outcome

/-- A run that prints, and succeeds. -/
def success (stdout : String) (stderr : List String) : Outcome := ⟨stdout, stderr, 0, none⟩

/-- A run that ends in an error after printing. -/
def failure (stdout : String) (stderr : List String) (message : String) : Outcome :=
  ⟨stdout, stderr ++ ["Error: " ++ message], 1, none⟩

/-- A run whose arguments make no command. -/
def usage (e : UsageError) : Outcome := ⟨"", ["error: " ++ e.message], 2, none⟩

/-- The run, where its file cannot be written. -/
def writeFailed (o : Outcome) (e : FileError) : Outcome := failure o.stdout o.stderr e.message

end Outcome

/-! ## Assembling -/

/-- The policy that the options ask for. -/
def AssembleOptions.policy (o : AssembleOptions) : Policy := if o.keepGoing then .keepGoing else .stop

/-- The event that reports the size of a listing. -/
def AssembleOptions.assembled (o : AssembleOptions) (l : Listing) : Event where
  level := .info
  target := "zasm"
  message := "assembled"
  fields := [("path", .text o.input), ("lines", .number l.entries.length), ("bytes", .number l.image.length)]

/-- The events that report the diagnostics of a listing. Structured output holds the diagnostics itself. -/
def AssembleOptions.reports (o : AssembleOptions) (l : Listing) : List Event :=
  match o.format with
  | .text => l.diagnostics.map Diagnostic.event
  | .json => []

/-- What is printed of a listing. -/
def AssembleOptions.print (o : AssembleOptions) (lib : Libraries) (l : Listing) : Except String String :=
  match o.format with
  | .text => .ok (l.render o.showBytes)
  | .json => lib.print (.listing l)

/-- The run of `assemble` on the content of its file. The image is written only if no line failed. -/
def runAssemble (lib : Libraries) (o : AssembleOptions) : Except FileError String → Outcome
  | .error e => .failure "" [] (lib.shown e.message)
  | .ok source =>
    let l := Listing.ofSource o.policy source
    match o.print lib l with
    | .error message => .failure "" (lib.log [o.assembled l]) (lib.shown message)
    | .ok text =>
      let log := lib.log (o.assembled l :: o.reports l)
      if l.errorCount = 0 then ⟨text, log, 0, o.out.map fun name => (name, l.image)⟩
      else .failure text log (lib.shown s!"{l.errorCount} line(s) failed to assemble")

/-! ## Single lines -/

/-- A token as a line of text, its column aligned to the right. -/
def tokenLine (t : Token) : String :=
  String.ofList ((toString t.column).toList.leftpad 3 ' ') ++ "  " ++ t.describe ++ "\n"

/-- The run that shows a value in structured form. -/
def showForm (lib : Libraries) (v : Value) : Outcome :=
  match lib.print v with
  | .ok text => .success text []
  | .error message => .failure "" [] (lib.shown message)

/-- The run of `tokens`. -/
def runTokens (lib : Libraries) (text : String) (format : Format) : Outcome :=
  match Token.scan text, format with
  | .error e, _ => .failure "" [] (lib.shown e.message)
  | .ok tokens, .text => .success (String.join (tokens.map tokenLine)) []
  | .ok tokens, .json => showForm lib (.tokens tokens)

/-- The run of `tree`. A line without a statement has no tree. -/
def runTree (lib : Libraries) (text : String) (format : Format) : Outcome :=
  match Statement.ofLine? text, format with
  | .error e, _ => .failure "" [] (lib.shown e.message)
  | .ok none, _ => .success "" []
  | .ok (some s), .text => .success s.dump []
  | .ok (some s), .json => showForm lib (.statement s)

/-- The run of `encode`. -/
def runEncode (lib : Libraries) (text : String) (format : Format) : Outcome :=
  match encodeLine text, format with
  | .error e, _ => .failure "" [] (lib.shown e.message)
  | .ok e, .text => .success (Text.hexDump e.bytes ++ "\n") (e.warnings.map Diagnostic.describe)
  | .ok e, .json => showForm lib (.encoded e)

/-! ## Commands -/

/-- The usage of the program. -/
def helpText : String :=
  String.join [
    "Z80 line assembler\n\nUsage: zasm <COMMAND>\n\nCommands:\n",
    "  assemble <FILE> [--out BIN] [--format text|json] [--keep-going] [--show-bytes]\n",
    "  tokens <LINE> [--format text|json]\n",
    "  tree <LINE> [--format text|json]\n",
    "  encode <LINE> [--format text|json]\n",
    "  help\n"]

/-- The name and version of the program. -/
def versionText : String := "zasm-cli 0.1.0\n"

/-- The file that a command reads. -/
def Command.input? : Command → Option String
  | .assemble o => some o.input
  | _ => none

/-- The run of a command with some libraries, given the content of the file that it reads. -/
def Command.runWith (lib : Libraries) (c : Command) (content : Except FileError String) : Outcome :=
  match c with
  | .assemble o => runAssemble lib o content
  | .line .tokens text format => runTokens lib text format
  | .line .tree text format => runTree lib text format
  | .line .encode text format => runEncode lib text format
  | .help => .success helpText []
  | .version => .success versionText []

/-- The run of a command, its log without times. -/
def Command.run (c : Command) (content : Except FileError String) : Outcome := c.runWith .plain content

end Z80Asm.Cli
