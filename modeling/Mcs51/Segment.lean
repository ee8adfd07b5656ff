import Mcs51.CodeUnit

/-!
# Segments

The tokens of a source become units in source order. Each `org` starts a segment. A label belongs to
the first unit after it in its segment; a label with no such unit is an orphan and is forgotten, so
that its name may be declared again. A second declaration of a live label is refused.
-/

namespace Mcs51

/-- The units read so far, and what is open. -/
structure Draft where
  /-- The names of the labels that are declared and not orphaned. -/
  live : List Text := []
  /-- The labels that wait for a unit, the last one first. -/
  pending : List Label := []
  origin : UInt32 := 0
  segment : Nat := 0
  /-- The units, the last one first. -/
  units : List CodeUnit := []
  /-- The last unit is an instruction that takes operands. -/
  takesOperands : Bool := false
  /-- The findings, the last one first. -/
  findings : List Finding := []
  deriving Repr, DecidableEq

namespace Draft

/-- Adds a finding. -/
def note (d : Draft) (f : Finding) : Draft := { d with findings := f :: d.findings }

/-- Opens a unit, which takes the labels that wait. -/
def openUnit (d : Draft) (content : Content) (takesOperands : Bool) : Draft :=
  let labels := d.pending.reverse.map fun l => (l.setOrigin d.origin).toOption.getD l
  { d with
    pending := []
    units := { content, labels, origin := d.origin, segment := d.segment } :: d.units
    takesOperands }

/-- Forgets the labels that wait. -/
def orphan (d : Draft) : Draft :=
  let orphans := d.pending.reverse
  { d with
    pending := []
    live := d.live.filter fun name => !orphans.any fun l => l.name == name
    findings :=
      (orphans.map fun l => Finding.error (.orphanLabel l.name) l.text l.position).reverse
        ++ d.findings }

/-- Adds an operand to the last unit. -/
def addOperand (d : Draft) (op : Operand) : Draft :=
  match d.takesOperands, d.units with
  | true, u :: units => match u.content with
    | .instruction name ops =>
      { d with units := { u with content := .instruction name (ops ++ [op]) } :: units }
    | .data _ => d.note (.error (.strayOperand op.text) op.text op.position)
  | _, _ => d.note (.error (.strayOperand op.text) op.text op.position)

/-- Adds a directive. -/
def addDirective (d : Draft) (dir : Directive) : Draft :=
  let d := { d with takesOperands := false }
  if dir.kind == .org then
    let d := d.orphan
    { d with origin := toWord dir.number, segment := d.segment + 1 }
  else if dir.kind.isData then d.openUnit (.data dir) false
  else d

/-- Adds a token. -/
def add (d : Draft) : Token → Draft
  | .label l =>
    if d.live.contains l.name then d.note (.error (.duplicateLabel l.name) l.text l.position)
    else { d with live := l.name :: d.live, pending := l :: d.pending }
  | .mnemonic m =>
    let d := if (Instruction.find? m.name).isNone && !m.broken then
        d.note (.error (.unknownMnemonic m.name) m.name m.position)
      else d
    d.openUnit (.instruction m []) true
  | .operand op => d.addOperand op
  | .directive dir => d.addDirective dir

end Draft

/-- The units of a source in source order, and what was found on the way. -/
structure Segmented where
  units : List CodeUnit
  findings : List Finding
  deriving Repr, DecidableEq

/-- Makes units of tokens. -/
def segment (tokens : List Token) : Segmented :=
  let draft := (tokens.foldl Draft.add {}).orphan
  ⟨draft.units.reverse, draft.findings.reverse⟩

end Mcs51
