import Mcs51.Text.MarkedInteger
import Mcs51.Text.Quoted

/-!
# Command line options

Options and other arguments may be mixed; `--` ends the options. An option has a long name, with its
value after `=` or as the next argument, and perhaps a letter: letters can be put together, and the
rest of their argument, or the next one, is the value of the last. A switch takes a value only after
`=`.
-/

namespace Mcs51.Command

inductive Flag where
  | output
  | raw
  | recordSize
  | byteWrap
  | config
  | set
  | define
  | verbose
  | help
  deriving Repr, DecidableEq

namespace Flag

def all : List Flag :=
  [.output, .raw, .recordSize, .byteWrap, .config, .set, .define, .verbose, .help]

def name : Flag → String
  | .output => "output"
  | .raw => "raw"
  | .recordSize => "record-size"
  | .byteWrap => "byte-wrap"
  | .config => "config"
  | .set => "set"
  | .define => "define"
  | .verbose => "verbose"
  | .help => "help"

/-- The letter of an option. -/
def letter? : Flag → Option Char
  | .output => some 'o'
  | .define => some 'D'
  | .verbose => some 'v'
  | .help => some 'h'
  | _ => none

/-- An option that needs no value. -/
def isSwitch : Flag → Bool
  | .raw | .byteWrap | .verbose | .help => true
  | _ => false

def ofName? (name : Text) : Option Flag := all.find? fun f => Text.ofString f.name == name

def ofLetter? (b : UInt8) : Option Flag := all.find? fun f => f.letter?.any fun c => c.toUInt8 == b

/-- How messages name an option. -/
def title (f : Flag) : Text :=
  match f.letter? with
  | some c => ['-'.toUInt8, c.toUInt8] ++ Text.ofString ", --" ++ Text.ofString f.name
  | none => Text.ofString "--" ++ Text.ofString f.name

end Flag

/-- Why the value of an option is refused. -/
inductive ValueError where
  | notTruth
  | notInteger (error : Text.IntegerError)
  deriving Repr, DecidableEq

def ValueError.message (value : Text) : ValueError → Text
  | .notTruth =>
    Text.ofString "strconv.ParseBool: parsing " ++ Text.quoted value
      ++ Text.ofString ": invalid syntax"
  | .notInteger error =>
    Text.ofString "strconv.ParseInt: parsing " ++ Text.quoted value ++ match error with
      | .malformed => Text.ofString ": invalid syntax"
      | .outOfRange => Text.ofString ": value out of range"

/-- Why a command line is refused. -/
inductive OptionError where
  | malformed (argument : Text)
  | unknownName (name : Text)
  | unknownLetter (letter : UInt8) (group : Text)
  | nameNeedsValue (argument : Text)
  | letterNeedsValue (letter : UInt8) (group : Text)
  | badValue (flag : Flag) (value : Text) (error : ValueError)
  deriving Repr, DecidableEq

def OptionError.message : OptionError → Text
  | .malformed argument => Text.ofString "bad flag syntax: " ++ argument
  | .unknownName name => Text.ofString "unknown flag: --" ++ name
  | .unknownLetter letter group =>
    Text.ofString "unknown shorthand flag: " ++ Text.quotedByte letter ++ Text.ofString " in -"
      ++ group
  | .nameNeedsValue argument => Text.ofString "flag needs an argument: " ++ argument
  | .letterNeedsValue letter group =>
    Text.ofString "flag needs an argument: " ++ Text.quotedByte letter ++ Text.ofString " in -"
      ++ group
  | .badValue flag value error =>
    Text.ofString "invalid argument " ++ Text.quoted value ++ Text.ofString " for "
      ++ Text.quoted flag.title ++ Text.ofString " flag: " ++ error.message value

/-- What the options of a command line say. -/
structure Options where
  /-- The output file; empty for one named after the source. -/
  output : Text := []
  raw : Bool := false
  recordSize? : Option Int := none
  byteWrap : Bool := false
  /-- The settings file; empty for none. -/
  config : Text := []
  /-- Settings in the order given, each with its value after `=`. -/
  settings : List Text := []
  /-- Equates in the order given, each perhaps with its value after `=`. -/
  defines : List Text := []
  verbose : Bool := false
  help : Bool := false
  deriving Repr, DecidableEq

namespace Options

def readTruth (value : Text) : Except ValueError Bool :=
  if ["1", "t", "T", "TRUE", "true", "True"].any fun w => Text.ofString w == value then .ok true
  else if ["0", "f", "F", "FALSE", "false", "False"].any fun w => Text.ofString w == value then
    .ok false
  else .error .notTruth

def readInteger (value : Text) : Except ValueError Int :=
  (Text.toMarkedInt value).mapError .notInteger

/-- The options with a value for one of them. -/
def tryAssign (o : Options) (flag : Flag) (value : Text) : Except ValueError Options :=
  match flag with
  | .output => .ok { o with output := value }
  | .config => .ok { o with config := value }
  | .set => .ok { o with settings := o.settings ++ [value] }
  | .define => .ok { o with defines := o.defines ++ [value] }
  | .raw => do return { o with raw := ← readTruth value }
  | .byteWrap => do return { o with byteWrap := ← readTruth value }
  | .verbose => do return { o with verbose := ← readTruth value }
  | .help => do return { o with help := ← readTruth value }
  | .recordSize => do return { o with recordSize? := some (← readInteger value) }

def assign (o : Options) (flag : Flag) (value : Text) : Except OptionError Options :=
  (o.tryAssign flag value).mapError (.badValue flag value)

/-- An option whose value is the next argument, and the error if there is none. -/
structure Awaiting where
  flag : Flag
  missing : OptionError

/-- The value of a switch without one. -/
def truth : Text := "true"

/-- Reads an argument that starts with two dashes. -/
def readName (o : Options) (argument : Text) : Except OptionError (Options × Option Awaiting) :=
  let body := argument.drop 2
  if body.head? == some '-'.toUInt8 || body.head? == some '='.toUInt8 then
    .error (.malformed argument)
  else
    let (name, value?) := match Text.cut? '='.toUInt8 body with
      | some (name, value) => (name, some value)
      | none => (body, none)
    match Flag.ofName? name, value? with
    | none, _ => .error (.unknownName name)
    | some flag, some value => do return (← o.assign flag value, none)
    | some flag, none =>
      if flag.isSwitch then do return (← o.assign flag truth, none)
      else .ok (o, some ⟨flag, .nameNeedsValue argument⟩)

/-- Reads letters put together. Those that start with `test.` are passed over. -/
def readLetters (o : Options) : Text → Except OptionError (Options × Option Awaiting)
  | [] => .ok (o, none)
  | letter :: rest =>
    if Text.beginsWith (Text.ofString "test.") (letter :: rest) then .ok (o, none)
    else match Flag.ofLetter? letter with
      | none => .error (.unknownLetter letter (letter :: rest))
      | some flag =>
        if rest.head? == some '='.toUInt8 && 1 < rest.length then do
          return (← o.assign flag (rest.drop 1), none)
        else if flag.isSwitch then do
          let o ← o.assign flag truth
          readLetters o rest
        else if rest.isEmpty then .ok (o, some ⟨flag, .letterNeedsValue letter (letter :: rest)⟩)
        else do return (← o.assign flag rest, none)

/-- Reads arguments; `awaiting` is an option that takes the first as its value. -/
def parseFrom (o : Options) (awaiting : Option Awaiting) :
    List Text → Except OptionError (Options × List Text)
  | [] => match awaiting with
    | some a => .error a.missing
    | none => .ok (o, [])
  | argument :: rest =>
    match awaiting with
    | some a => do
      let o ← o.assign a.flag argument
      parseFrom o none rest
    | none =>
      match argument with
      | 0x2d :: 0x2d :: [] => .ok (o, rest)
      | 0x2d :: 0x2d :: _ => do
        let (o, awaiting) ← o.readName argument
        parseFrom o awaiting rest
      | 0x2d :: b :: letters => do
        let (o, awaiting) ← o.readLetters (b :: letters)
        parseFrom o awaiting rest
      | _ => do
        let (o, others) ← parseFrom o none rest
        return (o, argument :: others)

/-- The options of a command line, and its other arguments. -/
def parse (arguments : List Text) : Except OptionError (Options × List Text) :=
  parseFrom {} none arguments

end Options
end Mcs51.Command
