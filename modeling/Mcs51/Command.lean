import Mcs51.Assembly
import Mcs51.Command.Files
import Mcs51.Command.Options
import Mcs51.Program.Emission
import Mcs51.Settings.Load
import Mcs51.Source
import Mcs51.Token.Reader

/-!
# The command

A run of the assembler: the command line gives options and a source file, the settings come from a
file and from the options, the source is prepared, read and assembled, and the program is written as
an Intel HEX file or as a flat image. Problems are listed whether or not they stop the run; a run
with errors writes nothing.
-/

namespace Mcs51.Command

/-- How texts are read that are in a language of their own: the document of a settings file, and the
expressions in a source. -/
structure Readers where
  table? : Text → Option Toml.Table := Toml.parse?
  evaluate : Expression.Evaluator := Expression.evaluate

/-! ## Outcomes -/

/-- Why a run fails. -/
inductive Failure where
  | options (error : OptionError)
  | argumentCount (count : Nat)
  | file (error : FileError)
  /-- A switch of the settings file was refused. -/
  | settingsFile (path : Text) (error : SettingsError)
  | settings (error : SettingsError)
  | noValue (item : Text)
  | tooLong
  | noConvergence (error : NoConvergence)
  | problems (error : RunFailed)
  | emission (error : Hex.WriteError)
  deriving Repr, DecidableEq

def Failure.message : Failure → Text
  | .options error => error.message
  | .argumentCount count => Text.ofString "accepts 1 arg(s), received " ++ Text.ofNat count
  | .file error => error.message
  | .settingsFile path error => path ++ Text.ofString ": " ++ error.message
  | .settings error => error.message
  | .noValue item => Text.ofString "--set " ++ item ++ Text.ofString ": expected name=value"
  | .tooLong => Text.tooLongMessage
  | .noConvergence error => error.message
  | .problems error => error.message
  | .emission error => error.message

/-- What a run has to tell on its way. -/
inductive Note where
  | log (line : Text)
  | problem (p : Problem)
  deriving Repr, DecidableEq

/-- What a run comes to: notes in order, and a result or a failure. -/
structure Outcome (α : Type) where
  notes : List Note := []
  result : Except Failure α

/-! ## Settings -/

/-- Sets the switches that options give, each with its value after the first `=`. -/
def applySettings (s : Settings) : List Text → Except Failure Settings
  | [] => .ok s
  | item :: items =>
    match Text.cut? '='.toUInt8 item with
    | none => .error (.noValue item)
    | some (name, value) => match s.set name value with
      | .error e => .error (.settings e)
      | .ok s => applySettings s items

/-- The switches that options give; the record size counts as the last of them. -/
def Options.switches (o : Options) : List Text :=
  o.settings ++ match o.recordSize? with
    | some size => [Text.ofString "record-size=" ++ Text.ofInt size]
    | none => []

/-- The settings of a settings file that was read, or could not be. -/
def settingsOfFile (readers : Readers) (path : Text) (contents : Except FileError Text) :
    Except Failure Settings :=
  let loaded : Except Failure Settings.Loaded := match contents with
    | .ok document => .ok (Settings.standard.load document readers.table?)
    | .error e =>
      if e.opened then .ok ⟨Settings.standard, some (.badDocument e.message)⟩ else .error (.file e)
  match loaded with
  | .error e => .error e
  | .ok ⟨_, some e⟩ => .error (.settingsFile path e)
  | .ok ⟨s, none⟩ => .ok s

/-! ## Assembling a source -/

/-- The equates that options define; one without a value is 1. -/
def Options.equates (o : Options) : Equates :=
  o.defines.foldl (fun e item => match Text.cut? '='.toUInt8 item with
    | some (name, value) => e.predefine name value
    | none => e.predefine item (Text.ofString "1")) {}

/-- The name of a file without its directory. -/
def baseName (path : Text) : Text :=
  (path.reverse.takeWhile (· != FileTree.slash)).reverse

/-- A path without the last point of its file's name and what follows. -/
def dropExtension (path : Text) : Text :=
  let name := baseName path
  if name.contains '.'.toUInt8 then
    ((path.reverse.dropWhile (· != '.'.toUInt8)).drop 1).reverse
  else path

/-- The path of the output. -/
def Options.outputPath (o : Options) (source : Text) : Text :=
  if o.output.isEmpty then
    dropExtension source ++ (if o.raw then Text.ofString ".bin" else Text.ofString ".hex")
  else o.output

/-- What is written of a program. -/
def Options.emit (o : Options) (s : Settings) (p : Program) : Program.Emission :=
  if o.raw then ⟨p.image, none⟩
  else p.writeHex s.recordSize (if o.byteWrap then .byte else .instruction)

/-- The log line of a symbol. -/
def symbolLine (name : Text) (address : UInt32) : Text :=
  Text.padRight 16 (Text.codeCount name) name ++ Text.ofString " "
    ++ Text.ofNatUpperHex 4 address.toNat

/-- Lines for the log, which only a verbose run keeps. -/
def Options.logged (o : Options) (lines : List Text) : List Note :=
  if o.verbose then lines.map .log else []

/-- Assembles the text of a source file. -/
def assembleText (readers : Readers) (o : Options) (s : Settings) (path text : Text) :
    Outcome Program :=
  let read := Text.readLines text
  let readNotes := o.logged (Source.log read.lines)
  if read.tooLong then ⟨readNotes, .error .tooLong⟩
  else
    let prepared := Source.prepare path o.equates read.lines readers.evaluate
    let source := readSource path prepared.lines
    let report := ({ path } : Report).addFindings (prepared.findings ++ source.reading.findings)
    let assembly := Assembly.assemble s source.reading.tokens report
    let notes := readNotes ++ o.logged assembly.log ++ assembly.report.sorted.map .problem
    match assembly.program, assembly.report.failure? with
    | .error e, _ => ⟨notes, .error (.noConvergence e)⟩
    | .ok _, some e => ⟨notes, .error (.problems e)⟩
    | .ok program, none =>
      ⟨notes ++ o.logged (program.symbols.map fun (name, address) => symbolLine name address),
        .ok program⟩

/-! ## Running -/

section

variable {m : Type → Type} [Monad m]

/-- The settings of a run. -/
def readSettings (readers : Readers) (files : Files m) (o : Options) :
    m (Except Failure Settings) := do
  if o.config.isEmpty then return applySettings Settings.standard o.switches
  let contents ← files.read o.config
  match settingsOfFile readers o.config contents with
  | .error e => return .error e
  | .ok s => return applySettings s o.switches

/-- Writes what is emitted of a program. -/
def writeOutput (files : Files m) (path : Text) (emission : Program.Emission) :
    m (Except Failure Unit) := do
  match ← files.write path emission.text with
  | .error e => return .error (.file e)
  | .ok () => match emission.error? with
    | some e => return .error (.emission e)
    | none => return .ok ()

/-- Assembles a source file and writes the program. -/
def runOn (readers : Readers) (files : Files m) (o : Options) (source : Text) :
    m (Outcome Unit) := do
  match ← readSettings readers files o with
  | .error e => return ⟨[], .error e⟩
  | .ok s =>
    match ← files.read source with
    | .error e => return ⟨[], .error (.file e)⟩
    | .ok text =>
      let outcome := assembleText readers o s source text
      match outcome.result with
      | .error e => return ⟨outcome.notes, .error e⟩
      | .ok program =>
        let result ← writeOutput files (o.outputPath source) (o.emit s program)
        return ⟨outcome.notes, result⟩

/-- What a command line asks for. -/
inductive Request where
  | help
  | assemble (o : Options) (source : Text)

/-- Reads a command line. -/
def Request.parse (arguments : List Text) : Except Failure Request :=
  match Options.parse arguments with
  | .error e => .error (.options e)
  | .ok (o, sources) =>
    if o.help then .ok .help
    else match sources with
      | [source] => .ok (.assemble o source)
      | _ => .error (.argumentCount sources.length)

/-- Runs a command line. -/
def run (files : Files m) (arguments : List Text) (readers : Readers := {}) : m (Outcome Unit) :=
  match Request.parse arguments with
  | .error e => return ⟨[], .error e⟩
  | .ok .help => return ⟨[], .ok ()⟩
  | .ok (.assemble o source) => runOn readers files o source

end

end Mcs51.Command
