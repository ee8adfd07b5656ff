import Mcs51.Command

/-!
# The program

Runs the command on the real file system. Notes go to standard error, and a run that fails ends with
its message and exit code 1.
-/

namespace Mcs51.Main

/-- The system's code for a directory in place of a file. -/
def directoryCode : UInt32 := 21

/-- The cause of a failed operation on a file. -/
def causeOf : IO.Error → Command.FileCause
  | .noFileOrDirectory .. => .missing
  | .inappropriateType _ code _ => if code == directoryCode then .isDirectory else .notDirectory
  | e => .other (Text.ofString (toString e))

/-- The string of a text; none if the text is not valid UTF-8. -/
def string? (t : Text) : Option String := String.fromUTF8? ⟨t.toArray⟩

/-- Runs an operation on the file of a path; `opens` says whether a directory
can be opened for it. -/
def onFile {α : Type} (opens : Bool) (path : Text) (act : String → IO α) :
    IO (Except Command.FileError α) := do
  match string? path with
  | none => return .error ⟨false, path, .missing⟩
  | some name =>
    try return .ok (← act name)
    catch e =>
      let cause := causeOf e
      return .error ⟨opens && cause == .isDirectory, path, cause⟩

/-- The files of the system. -/
def files : Command.Files IO where
  read path := onFile true path fun name => do return (← IO.FS.readBinFile name).toList
  write path contents := onFile false path fun name => IO.FS.writeBinFile name ⟨contents.toArray⟩

/-- Writes a line to standard error. -/
def tell (line : Text) : IO Unit := do
  (← IO.getStderr).write ⟨(line ++ [Text.lineFeed]).toArray⟩

def usage : String :=
  "Usage: asm51 [flags] source.asm\n\n" ++
  "  -o, --output FILE        output file (default: the source with .hex, or .bin with --raw)\n" ++
  "      --raw                write a flat binary image instead of Intel HEX\n" ++
  "      --record-size N      Intel HEX record payload size, 1..255\n" ++
  "      --byte-wrap          split instructions across Intel HEX records\n" ++
  "      --config FILE        TOML configuration file\n" ++
  "      --set NAME=VALUE     set a switch\n" ++
  "  -D, --define NAME=VALUE  predefine an equate\n" ++
  "  -v, --verbose            verbose mode\n" ++
  "  -h, --help               this text"

/-- Runs a command line and gives its exit code. -/
def run (arguments : List Text) : IO UInt32 := do
  if let .ok .help := Command.Request.parse arguments then IO.println usage
  let outcome ← Command.run files arguments
  for note in outcome.notes do
    match note with
    | .log line => tell line
    | .problem p => tell p.text
  match outcome.result with
  | .ok () => return 0
  | .error e =>
    tell (Text.ofString "asm51: " ++ e.message)
    return 1

end Mcs51.Main

def main (arguments : List String) : IO UInt32 := Mcs51.Main.run (arguments.map Mcs51.Text.ofString)
