/-
The program: it reads the source, runs the command, prints, and writes the image.
-/
import Z80Asm.Cli.Outcome

namespace Z80Asm.Cli

/-- The file error that an error of the system is. -/
def fileError : IO.Error → FileError
  | .noFileOrDirectory .. => .notFound
  | e => .other (toString e)

/-- The content of the file that a command reads. -/
def readContent (c : Command) : IO (Except FileError String) := do
  match c.input? with
  | none => return .ok ""
  | some name =>
    try
      return decodeText (← IO.FS.readBinFile name)
    catch e => return .error (fileError e)

/-- The run, after its file is written. -/
def writeFile (o : Outcome) : IO Outcome := do
  match o.file with
  | none => return o
  | some (name, bytes) =>
    try
      IO.FS.writeBinFile name ⟨bytes.toArray⟩
      return o
    catch e => return o.writeFailed (fileError e)

end Z80Asm.Cli

open Z80Asm.Cli

/-- The entry point. -/
def main (arguments : List String) : IO UInt32 := do
  let outcome ← match Command.ofArguments arguments with
    | .error e => pure (Outcome.usage e)
    | .ok c => writeFile (c.run (← readContent c))
  IO.print outcome.stdout
  for line in outcome.stderr do
    IO.eprintln line
  return outcome.exit.toUInt32
