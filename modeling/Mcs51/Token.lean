import Mcs51.Operand

/-!
# Tokens

A source line gives at most one label, then a directive, or the name of an instruction and its
operands.
-/

namespace Mcs51

/-! ## Instruction names -/

/-- The name of an instruction in a source line. -/
structure Mnemonic where
  name : Text
  position : Position
  /-- Some operand of the line could not be read. -/
  broken : Bool := false
  deriving Repr, DecidableEq

/-! ## Labels -/

/-- A declared code address: the origin of its segment, once known, and the offset from it. -/
structure Label where
  name : Text
  position : Position
  origin? : Option UInt32 := none
  offset : UInt32 := 0
  deriving Repr, DecidableEq

namespace Label

/-- The origin was set before. -/
structure OriginSet where
  name : Text
  deriving Repr, DecidableEq

/-- The wording of a second origin. -/
def OriginSet.message (e : OriginSet) : Text :=
  (Message.mk "label %v: origin already set" [e.name]).render

/-- The origin; zero as long as it is not set. -/
def origin (l : Label) : UInt32 := l.origin?.getD 0

/-- The address of a label. -/
def address (l : Label) : UInt32 := l.origin + l.offset

/-- Sets the origin, which can be done once. -/
def setOrigin (l : Label) (origin : UInt32) : Except OriginSet Label :=
  match l.origin? with
  | none => .ok { l with origin? := some origin }
  | some _ => .error ⟨l.name⟩

/-- The label as it is declared. -/
def text (l : Label) : Text := l.name ++ Text.ofString ":"

end Label

/-! ## Directives -/

/-- The directives. -/
inductive DirectiveKind where
  | org
  | db
  | dw
  | ds
  | file
  | «end»
  deriving Repr, DecidableEq

namespace DirectiveKind

/-- All directives. -/
def all : List DirectiveKind := [.org, .db, .dw, .ds, .file, .end]

/-- The number of a directive. -/
def code : DirectiveKind → Int
  | .org => 0
  | .db => 1
  | .dw => 2
  | .ds => 3
  | .file => 4
  | .end => 5

def name : DirectiveKind → String
  | .org => "org"
  | .db => "db"
  | .dw => "dw"
  | .ds => "ds"
  | .file => "file"
  | .end => "end"

/-- The names of the directives, by number. -/
def table : NameTable := ⟨"DirectiveKind", all.map fun kind => (kind.code, kind.name)⟩

/-- The directive of a name. -/
def ofName? (name : Text) : Option DirectiveKind :=
  all.find? fun kind => Text.ofString kind.name == name

/-- The directive puts data into code memory. -/
def isData : DirectiveKind → Bool
  | .db | .dw | .ds => true
  | .org | .file | .end => false

end DirectiveKind

/-- A directive with its arguments. -/
structure Directive where
  kind : DirectiveKind
  position : Position
  /-- The address of `org`, the count of `ds`. -/
  number : Int := 0
  /-- The bytes of `db` and `dw`. -/
  data : List UInt8 := []
  /-- The path of `file`. -/
  path : Text := []
  deriving Repr, DecidableEq

namespace Directive

/-- The directive as it is written. -/
def text (d : Directive) : Text := Text.ofString "." ++ Text.ofString d.kind.name

/-- The bytes that a directive puts into code memory. -/
def bytes (d : Directive) : List UInt8 :=
  match d.kind with
  | .db | .dw => d.data
  | .ds => List.replicate d.number.toNat 0
  | .org | .file | .end => []

end Directive

/-! ## Tokens -/

/-- A part of a source line. -/
inductive Token where
  | mnemonic (m : Mnemonic)
  | operand (op : Operand)
  | label (l : Label)
  | directive (d : Directive)
  deriving Repr, DecidableEq

namespace Token

/-- The names of the kinds of tokens. -/
def table : NameTable := ⟨"Kind", [(0, "mnemonic"), (1, "operand"), (2, "label"), (3, "directive")]⟩

/-- The number of a token's kind. -/
def code : Token → Int
  | .mnemonic _ => 0
  | .operand _ => 1
  | .label _ => 2
  | .directive _ => 3

/-- The text of a token, its case folded, without punctuation. -/
def value : Token → Text
  | .mnemonic m => m.name
  | .operand op => op.text
  | .label l => l.name
  | .directive d => Text.ofString d.kind.name

def position : Token → Position
  | .mnemonic m => m.position
  | .operand op => op.position
  | .label l => l.position
  | .directive d => d.position

/-- The text of a token in a report. -/
def text : Token → Text
  | .mnemonic m => m.name
  | .operand op => op.text
  | .label l => l.text
  | .directive d => d.text

/-- The order of tokens: by kind, then by text. -/
def order (s t : Token) : Ordering :=
  (compare s.code t.code).then (Text.order s.value t.value)

/-- `s` comes before `t` or equals it. -/
def le (s t : Token) : Bool := (order s t).isLE

end Token
end Mcs51
