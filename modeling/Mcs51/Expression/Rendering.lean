import Mcs51.Binary64.Rounded
import Mcs51.Expression.Arithmetic
import Mcs51.Text.Quoted

/-!
# Values as text

A value is written the way an expression would give it. A list or dictionary inside itself is
written as three points. Templates hold places for values: of one kind the places start with a
percent sign, of the other they stand in braces.
-/

namespace Mcs51.Expression

/-! ## Numbers -/

/-- How a floating-point number is written. -/
inductive RealForm where
  | shortest
  | scientific
  | fixed
  | unknown (verb : UInt8)
  deriving Repr, DecidableEq

/-- Without a point or an exponent a number would look like an integer. -/
def pointed (t : Text) : Text :=
  if t.contains '.'.toUInt8 || t.contains 'e'.toUInt8 then t else t ++ Text.ofString ".0"

/-- The places after the point that a form has if the number does not choose them. -/
def realPlaces : Nat := 6

/-- The text of a floating-point number, its exponent after a small or a large letter. -/
def realText (form : RealForm) (large : Bool) : Binary64 → Text
  | .undefined => Text.ofString "nan"
  | .infinite negative => if negative then Text.ofString "-inf" else Text.ofString "+inf"
  | .finite negative mantissa exponent =>
    let sign : Text := if negative then ['-'.toUInt8] else []
    let cased (t : Text) := if large then t.map Text.upperByte else t
    match form with
    | .shortest => cased (pointed (Binary64.text (.finite negative mantissa exponent)))
    | .scientific =>
      cased (sign ++ Binary64.scientific (Binary64.rounded (realPlaces + 1) mantissa exponent))
    | .fixed => sign ++ Binary64.fixed realPlaces mantissa exponent
    | .unknown verb => ['%'.toUInt8, verb]

/-- An integer with the digits of a base. -/
def integerText (base : Nat) (n : Int) : Text :=
  (if n < 0 then ['-'.toUInt8] else []) ++ Text.ofNatBase base n.natAbs

/-- The text of a range. -/
def Range.text (r : Range) : Text :=
  let bounds :=
    if r.step != 1 then [r.start, r.stop, r.step]
    else if r.start != 0 then [r.start, r.stop]
    else [r.stop]
  Text.ofString "range(" ++ Text.joinWith (Text.ofString ", ") (bounds.map Text.ofInt)
    ++ [')'.toUInt8]

namespace Value

/-! ## Values -/

/-- A literal of bytes. -/
def quotedBytes (t : Text) : Text := 'b'.toUInt8 :: Text.quoted t

/-- Texts in brackets. -/
def bracketed (left right : Char) (parts : List Text) : Text :=
  left.toUInt8 :: Text.joinWith (Text.ofString ", ") parts ++ [right.toUInt8]

/-- A value of the store that can hold itself. -/
inductive Owner where
  | list (number : Nat)
  | dict (number : Nat)
  deriving DecidableEq

/-- Values are written as deep as this. -/
def writeDepth : Nat := 1048576

/-- The text of a value inside the lists and dictionaries of `path`. -/
def write (s : Store) : Nat → List Owner → Value → Text
  | 0, _, _ => Text.ofString "..."
  | depth + 1, path, x => match x with
    | .nothing => Text.ofString "None"
    | .truth b => if b then Text.ofString "True" else Text.ofString "False"
    | .integer n => Text.ofInt n
    | .real x => realText .shortest false x
    | .text t => Text.quoted t
    | .bytes t => quotedBytes t
    | .tuple items => match items with
      | [item] => '('.toUInt8 :: write s depth path item ++ Text.ofString ",)"
      | items => bracketed '(' ')' (items.map (write s depth path))
    | .list number =>
      if path.contains (.list number) then Text.ofString "[...]"
      else
        let path := .list number :: path
        bracketed '[' ']' ((s.items number).toList.map (write s depth path))
    | .dict number =>
      if path.contains (.dict number) then Text.ofString "\x7b...\x7d"
      else
        let inner := .dict number :: path
        bracketed '\x7b' '\x7d' ((s.entries number).toList.map fun (key, value) =>
          write s depth path key ++ Text.ofString ": " ++ write s depth inner value)
    | .range r => r.text
    | .elements t parts => Text.quoted t ++ match parts with
      | .texts => Text.ofString ".elems()"
      | .numbers => Text.ofString ".elem_ords()"
    | .points t parts => Text.quoted t ++ match parts with
      | .texts => Text.ofString ".codepoints()"
      | .numbers => Text.ofString ".codepoint_ords()"
    | .byteNumbers t => quotedBytes t ++ Text.ofString ".elems()"
    | .function number =>
      let name := match s.closures[number]? with
        | some closure => closure.code.name
        | none => []
      Text.ofString "<function " ++ name ++ ['>'.toUInt8]
    | .builtin f => Text.ofString "<built-in function " ++ f.name ++ ['>'.toUInt8]
    | .method receiver m _ =>
      Text.ofString "<built-in method " ++ m.name ++ Text.ofString " of " ++ receiver.typeName
        ++ Text.ofString " value>"

/-- A value as an expression would give it. -/
def reprIn (s : Store) (x : Value) : Text := write s writeDepth [] x

/-- A value as it is shown: a text is shown as it is. -/
def showIn (s : Store) : Value → Text
  | .text t => t
  | x => reprIn s x

/-! ## Places after percent signs -/

/-- An integer at the place of a verb. -/
def wholeText? (base : Nat) (x : Value) : Option Text := (wholePart? x).map (integerText base)

/-- A number at the place of a verb, as a floating-point number. -/
def realText? (form : RealForm) (large : Bool) (x : Value) : Option Text :=
  match x with
  | .integer n => some (realText form large (Binary64.ofInt n))
  | .real x => some (realText form large x)
  | _ => none

/-- The text of a number that is at most that of the last code point. A number that belongs to no
code point stands for one without meaning. -/
def numberedPoint? (n : Int) : Option Text :=
  if n < 0 || 0x10ffff < n then none
  else if Text.isScalar n.toNat then some (Text.encodePoint n.toNat)
  else some (Text.encodePoint Text.replacement)

/-- A code point, given by its number or as a text that is nothing else. -/
def pointText? : Value → Option Text
  | .integer n => numberedPoint? n
  | .text t => match Text.pieces t with
    | [piece] => some (Text.encodePoint piece.code)
    | _ => none
  | _ => none

/-- The text of a value at the place of a verb. -/
def verbText? (s : Store) (verb : UInt8) (x : Value) : Option Text :=
  match Char.ofNat verb.toNat with
  | 's' => some (showIn s x)
  | 'r' => some (reprIn s x)
  | 'd' | 'i' => wholeText? 10 x
  | 'o' => wholeText? 8 x
  | 'x' => wholeText? 16 x
  | 'X' => (wholeText? 16 x).map (·.map Text.upperByte)
  | 'e' => realText? .scientific false x
  | 'E' => realText? .scientific true x
  | 'f' => realText? .fixed false x
  | 'F' => realText? (.unknown verb) false x
  | 'g' => realText? .shortest false x
  | 'G' => realText? .shortest true x
  | 'c' => pointText? x
  | '%' => some ['%'.toUInt8]
  | _ => none

/-- The value that a template names or that stands next, and the rest of the template. -/
def chosen? (s : Store) (x : Value) (taken : Nat) (t : Text) : Option (Value × Text) :=
  match t with
  | 0x28 :: t => do
    let (key, rest) ← Text.cut? ')'.toUInt8 t
    match x with
    | .dict number => match lookupKey? (s.entries number) (.text key) with
      | .ok (some value) => some (value, rest)
      | _ => none
    | _ => none
  | t => match x with
    | .tuple items => (items[taken]?).map fun item => (item, t)
    | x => if taken == 0 then some (x, t) else none

/-- How many of its values a template must use: all of a tuple, but none of a dictionary, whose
values it chooses by name. -/
def leastUsed : Value → Nat
  | .tuple items => items.length
  | .dict _ => 0
  | _ => 1

/-- Fills the places of a template from the value `taken` on. -/
def fill? (s : Store) (x : Value) : Nat → Nat → Text → Option Text
  | 0, _, _ => none
  | fuel + 1, taken, t =>
    match Text.cut? '%'.toUInt8 t with
    | none => if taken < x.leastUsed then none else some t
    | some (before, 0x25 :: rest) => do
      return before ++ '%'.toUInt8 :: (← fill? s x fuel taken rest)
    | some (before, rest) => do
      match ← chosen? s x taken rest with
      | (value, verb :: rest) =>
        let shown ← verbText? s verb value
        return before ++ shown ++ (← fill? s x fuel (taken + 1) rest)
      | (_, []) => none

/-- Fills a template whose places start with percent signs. -/
def fill (template : Text) (x : Value) : Run Value := do
  match fill? (← get) x (template.length + 1) 0 template with
  | some t => return .text t
  | none => Store.fail .badTemplate

/-! ## Places in braces -/

/-- How the places of a template choose their values: one after the other, or by number. -/
inductive Numbering where
  | undecided
  | automatic (next : Nat)
  | manual
  deriving Repr, DecidableEq

/-- A place in braces: what it names, how its value is written, and a style. -/
structure Field where
  name : Text
  conversion : Text
  style : Text
  deriving Repr, DecidableEq

/-- A text up to a byte and after it. -/
def halves (sep : UInt8) (t : Text) : Text × Option Text :=
  match Text.cut? sep t with
  | some (left, right) => (left, some right)
  | none => (t, none)

def Field.read (t : Text) : Field :=
  match halves '!'.toUInt8 t with
  | (name, some rest) =>
    let (conversion, style?) := halves ':'.toUInt8 rest
    ⟨name, conversion, style?.getD []⟩
  | (_, none) =>
    let (name, style?) := halves ':'.toUInt8 t
    ⟨name, Text.ofString "s", style?.getD []⟩

/-- The number that a row of digits stands for, in 64 bits. -/
def placeNumber? (t : Text) : Option Int :=
  t.foldlM (fun n b =>
    let next := wrap64 (n * 10 + Text.digitValue b)
    if Text.isDigit b && 0 ≤ next then some next else none) 0

/-- The value at a place, and how the next place is chosen. -/
def fieldValue? (args : Arguments) (numbering : Numbering) (name : Text) :
    Option (Value × Numbering) :=
  if name.isEmpty then
    match numbering with
    | .manual => none
    | .undecided => (args.places[0]?).map fun x => (x, .automatic 1)
    | .automatic next => (args.places[next]?).map fun x => (x, .automatic (next + 1))
  else match placeNumber? name with
    | some n => match numbering with
      | .automatic _ => none
      | _ => (args.places[n.toNat]?).map fun x => (x, .manual)
    | none => (args.named.lookup name).map fun x => (x, numbering)

/-- A text between places: a closing brace stands twice. -/
def plainPart? : Text → Option Text
  | 0x7d :: 0x7d :: rest => (plainPart? rest).map (0x7d :: ·)
  | b :: rest => if b == 0x7d then none else (plainPart? rest).map (b :: ·)
  | [] => some []

/-- Fills the places of a template. -/
def format? (s : Store) (args : Arguments) : Nat → Numbering → Text → Option Text
  | 0, _, _ => none
  | fuel + 1, numbering, t => match halves 0x7b t with
    | (before, none) => plainPart? before
    | (before, some (0x7b :: rest)) => do
      let start ← plainPart? before
      return start ++ 0x7b :: (← format? s args fuel numbering rest)
    | (before, some rest) => do
      let start ← plainPart? before
      let (field, rest) ← Text.cut? 0x7d rest
      let field := Field.read field
      let (value, numbering) ← fieldValue? args numbering field.name
      if !field.style.isEmpty then none
      let shown ←
        if field.conversion == Text.ofString "s" then some (showIn s value)
        else if field.conversion == Text.ofString "r" then some (reprIn s value)
        else none
      return start ++ shown ++ (← format? s args fuel numbering rest)

/-- Fills a template whose places stand in braces. -/
def format (template : Text) (args : Arguments) : Run Value := do
  match format? (← get) args (template.length + 1) .undecided template with
  | some t => return .text t
  | none => Store.fail .badTemplate

end Value
end Mcs51.Expression
