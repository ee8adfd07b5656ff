import Mcs51.Expression.Tree

/-!
# Values of expressions

An expression may use more than integers on the way to its result: floating-point numbers, truth
values, strings of text and of bytes, sequences, dictionaries and functions. Integers have no
bounds. Lists, dictionaries and functions that an expression defines are known by their numbers in
the store, because they keep their identity when they change.
-/

namespace Mcs51.Expression

/-! ## Functions that are given -/

/-- The functions that have names of their own. -/
inductive Builtin where
  | abs
  | all
  | any
  | bool
  | bytes
  | chr
  | dict
  | dir
  | enumerate
  | fail
  | float
  | getattr
  | hasattr
  | hash
  | int
  | len
  | list
  | max
  | min
  | ord
  | print
  | range
  | repr
  | reversed
  | sorted
  | str
  | tuple
  | type
  | zip
  deriving Repr, DecidableEq

/-- The functions by their names. -/
def Builtin.table : List (String × Builtin) :=
  [("abs", .abs), ("all", .all), ("any", .any), ("bool", .bool), ("bytes", .bytes), ("chr", .chr),
   ("dict", .dict), ("dir", .dir), ("enumerate", .enumerate), ("fail", .fail), ("float", .float),
   ("getattr", .getattr), ("hasattr", .hasattr), ("hash", .hash), ("int", .int), ("len", .len),
   ("list", .list), ("max", .max), ("min", .min), ("ord", .ord), ("print", .print),
   ("range", .range), ("repr", .repr), ("reversed", .reversed), ("sorted", .sorted), ("str", .str),
   ("tuple", .tuple), ("type", .type), ("zip", .zip)]

inductive ListMethod where
  | append
  | clear
  | extend
  | index
  | insert
  | pop
  | remove
  deriving Repr, DecidableEq

inductive DictMethod where
  | clear
  | get
  | items
  | keys
  | pop
  | popitem
  | setdefault
  | update
  | values
  deriving Repr, DecidableEq

inductive TextMethod where
  | capitalize
  | codepointOrds
  | codepoints
  | count
  | elemOrds
  | elems
  | endswith
  | find
  | format
  | index
  | isalnum
  | isalpha
  | isdigit
  | islower
  | isspace
  | istitle
  | isupper
  | join
  | lower
  | lstrip
  | partition
  | removeStart
  | removeEnd
  | replace
  | rfind
  | rindex
  | rpartition
  | rsplit
  | rstrip
  | split
  | splitlines
  | startswith
  | strip
  | title
  | upper
  deriving Repr, DecidableEq

/-- The functions that belong to values of some type. -/
inductive Method where
  | ofList (m : ListMethod)
  | ofDict (m : DictMethod)
  | ofText (m : TextMethod)
  | bytesElems
  deriving Repr, DecidableEq

/-- The functions of lists by their names, in the order of the names. -/
def ListMethod.table : List (String × ListMethod) :=
  [("append", .append), ("clear", .clear), ("extend", .extend), ("index", .index),
   ("insert", .insert), ("pop", .pop), ("remove", .remove)]

/-- The functions of dictionaries by their names, in the order of the names. -/
def DictMethod.table : List (String × DictMethod) :=
  [("clear", .clear), ("get", .get), ("items", .items), ("keys", .keys), ("pop", .pop),
   ("popitem", .popitem), ("setdefault", .setdefault), ("update", .update), ("values", .values)]

/-- The functions of strings by their names, in the order of the names. -/
def TextMethod.table : List (String × TextMethod) :=
  [("capitalize", .capitalize), ("codepoint_ords", .codepointOrds), ("codepoints", .codepoints),
   ("count", .count), ("elem_ords", .elemOrds), ("elems", .elems), ("endswith", .endswith),
   ("find", .find), ("format", .format), ("index", .index), ("isalnum", .isalnum),
   ("isalpha", .isalpha), ("isdigit", .isdigit), ("islower", .islower), ("isspace", .isspace),
   ("istitle", .istitle), ("isupper", .isupper), ("join", .join), ("lower", .lower),
   ("lstrip", .lstrip), ("partition", .partition), ("removeprefix", .removeStart),
   ("removesuffix", .removeEnd), ("replace", .replace), ("rfind", .rfind), ("rindex", .rindex),
   ("rpartition", .rpartition), ("rsplit", .rsplit), ("rstrip", .rstrip), ("split", .split),
   ("splitlines", .splitlines), ("startswith", .startswith), ("strip", .strip), ("title", .title),
   ("upper", .upper)]

/-- The entry of a table for a name. -/
def lookupName? {α : Type} (table : List (String × α)) (name : Text) : Option α :=
  (table.find? fun entry => Text.ofString entry.1 == name).map Prod.snd

/-- The name that a table has for an entry. -/
def nameIn {α : Type} [BEq α] (table : List (String × α)) (a : α) : Text :=
  match table.find? fun entry => entry.2 == a with
  | some (name, _) => Text.ofString name
  | none => []

/-- The name of a function that is given. -/
def Builtin.name (f : Builtin) : Text := nameIn table f

/-- The name of a function of a type. -/
def Method.name : Method → Text
  | .ofList m => nameIn ListMethod.table m
  | .ofDict m => nameIn DictMethod.table m
  | .ofText m => nameIn TextMethod.table m
  | .bytesElems => Text.ofString "elems"

/-! ## Values -/

/-- The integers from `start` by `step`, `count` of them; `stop` is the one to stop before. All are
integers of 64 bits. -/
structure Range where
  start : Int
  stop : Int
  step : Int
  count : Int
  deriving Repr, DecidableEq

/-- What a sequence made from a string gives: parts of the string, or their numbers. -/
inductive Parts where
  | texts
  | numbers
  deriving Repr, DecidableEq

inductive Value where
  | nothing
  | truth (b : Bool)
  | integer (n : Int)
  | real (x : Binary64)
  | text (t : Text)
  | bytes (t : Text)
  | tuple (items : List Value)
  | list (number : Nat)
  | dict (number : Nat)
  | range (r : Range)
  /-- The bytes of a string, one by one. -/
  | elements (t : Text) (parts : Parts)
  /-- The code points of a string, one by one. -/
  | points (t : Text) (parts : Parts)
  /-- The numbers of bytes, one by one. -/
  | byteNumbers (t : Text)
  | function (number : Nat)
  | builtin (f : Builtin)
  /-- A function of a value's type together with the value. Each time it is looked up makes another
  one, told apart by its number. -/
  | method (receiver : Value) (m : Method) (number : Nat)

/-- The name of a value's type. -/
def Value.typeName : Value → Text
  | .nothing => "NoneType"
  | .truth _ => "bool"
  | .integer _ => "int"
  | .real _ => "float"
  | .text _ => "string"
  | .bytes _ => "bytes"
  | .tuple _ => "tuple"
  | .list _ => "list"
  | .dict _ => "dict"
  | .range _ => "range"
  | .elements _ _ => "string.elems"
  | .points _ _ => "string.codepoints"
  | .byteNumbers _ => "bytes.elems"
  | .function _ => "function"
  | .builtin _ | .method _ _ _ => "builtin_function_or_method"

/-- The names of what a value has after a point, in their order. -/
def Value.attributeNames : Value → List Text
  | .list _ => ListMethod.table.map fun entry => Text.ofString entry.1
  | .dict _ => DictMethod.table.map fun entry => Text.ofString entry.1
  | .text _ => TextMethod.table.map fun entry => Text.ofString entry.1
  | .bytes _ => [Text.ofString "elems"]
  | _ => []

/-- The function of a value's type with the given name. -/
def Value.method? (x : Value) (name : Text) : Option Method :=
  match x with
  | .list _ => (lookupName? ListMethod.table name).map .ofList
  | .dict _ => (lookupName? DictMethod.table name).map .ofDict
  | .text _ => (lookupName? TextMethod.table name).map .ofText
  | .bytes _ => if name == Text.ofString "elems" then some .bytesElems else none
  | _ => none

/-- The values that have names of their own. -/
def Value.ofName? (name : Text) : Option Value :=
  match lookupName? Builtin.table name with
  | some f => some (.builtin f)
  | none => lookupName? [("None", .nothing), ("True", .truth true), ("False", .truth false)] name

/-- The arguments of a call: those by place, and those by name. -/
structure Arguments where
  places : List Value
  named : List (Text × Value) := []

/-! ## Faults -/

/-- Why an operation has no value. -/
inductive Fault where
  | zeroDivisor
  | badShift
  | tooLarge
  | badOperands
  | notComparable
  | tooDeep
  | notIndexable
  | badIndex
  | notIterable
  | notKey
  | missingKey
  | repeatedKey
  | inUse
  | notFunction
  | badArguments
  | recursive
  | noAttribute (name : Text)
  | fixedTarget
  | badCount
  | emptySequence
  | badNumeral
  | badTemplate
  | notFound
  | givenUp
  | unassigned (name : Text)
  deriving Repr, DecidableEq

def Fault.message : Fault → Text
  | .zeroDivisor => "division by zero"
  | .badShift => "shift count out of range"
  | .tooLarge => "value too large"
  | .badOperands => "operator does not take these operands"
  | .notComparable => "values cannot be compared"
  | .tooDeep => "values are nested too deeply"
  | .notIndexable => "value has no items"
  | .badIndex => "index out of range"
  | .notIterable => "value is no sequence"
  | .notKey => "value cannot be a key"
  | .missingKey => "key is missing"
  | .repeatedKey => "key is given twice"
  | .inUse => "value cannot change while a loop goes through it"
  | .notFunction => "value is not a function"
  | .badArguments => "function does not take these arguments"
  | .recursive => "function calls itself"
  | .noAttribute name => Text.ofString "value has no attribute " ++ name
  | .fixedTarget => "value cannot be changed"
  | .badCount => "number of values does not fit"
  | .emptySequence => "sequence is empty"
  | .badNumeral => "text is not a number"
  | .badTemplate => "template does not fit its values"
  | .notFound => "value is not found"
  | .givenUp => "evaluation is given up"
  | .unassigned name => Text.ofString "'" ++ name ++ Text.ofString "' has no value yet"

end Mcs51.Expression
