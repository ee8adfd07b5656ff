import Mcs51.Instruction

/-!
# Code units

A unit is one instruction or one data directive, together with where it is placed and how it is
encoded. Compiling a unit again can change it only if its encoding depends on its address or on a
symbol; other units are static once compiled, and compiling them again is skipped.
-/

namespace Mcs51

/-- An address or a count as a word of 32 bits. -/
def toWord (n : Int) : UInt32 := (n % 4294967296).toNat.toUInt32

/-- What a unit puts into code memory. -/
inductive Content where
  | instruction (name : Mnemonic) (operands : List Operand)
  | data (d : Directive)
  deriving Repr, DecidableEq

/-- One instruction or one data directive. -/
structure CodeUnit where
  content : Content
  /-- The labels that address the unit. -/
  labels : List Label := []
  /-- The origin of the unit's segment. -/
  origin : UInt32 := 0
  /-- The number of the unit's segment. -/
  segment : Nat := 0
  /-- The address of the unit. -/
  point : UInt32 := 0
  /-- The encoded bytes; none for reserved space and where encoding failed. -/
  code : Code := []
  /-- The number of bytes the unit occupies. -/
  size : Int := 0
  /-- What the last compilation found, if there was one. -/
  findings? : Option (List Finding) := none
  /-- Compiling again cannot change the unit. -/
  settled : Bool := false
  deriving Repr, DecidableEq

namespace CodeUnit

/-- Where the unit stands in the source. -/
def position (u : CodeUnit) : Position :=
  match u.content with
  | .instruction name _ => name.position
  | .data d => d.position

/-- The operands of an instruction. -/
def operands (u : CodeUnit) : List Operand :=
  match u.content with
  | .instruction _ ops => ops
  | .data _ => []

/-- The unit as it is shown. -/
def text (u : CodeUnit) : Text :=
  match u.content with
  | .instruction name [] => name.name
  | .instruction name ops =>
    name.name ++ Text.ofString " " ++ Text.joinWith (Text.ofString ", ") (ops.map Operand.text)
  | .data d => d.text

/-- The unit reserves space without code. -/
def isReservation (u : CodeUnit) : Bool :=
  match u.content with
  | .instruction _ _ => false
  | .data d => d.kind == .ds

/-- The unit was compiled, and compiling it again cannot change it. -/
def isStatic (u : CodeUnit) : Bool := u.findings?.isSome && u.settled

/-- The problems of the last compilation, with the unit's own path for those that know none. -/
def problems (u : CodeUnit) : List Problem :=
  (u.findings?.getD []).map (Problem.ofFinding u.position.path)

/-- The instruction that a name stands for, unless an operand of the line could not be read. -/
def instruction? (name : Mnemonic) : Option Instruction :=
  if name.broken then none else Instruction.find? name.name

/-! ## Compilation -/

/-- Encodes a unit at its address. A unit that fails to encode keeps the size of its last good
encoding. -/
def recompile (settings : Settings) (u : CodeUnit) : CodeUnit :=
  match u.content with
  | .data d =>
    if d.kind == .ds then
      { u with code := [], size := d.number, settled := true, findings? := some [] }
    else { u with code := d.bytes, size := d.bytes.length, settled := true, findings? := some [] }
  | .instruction name ops =>
    match instruction? name with
    | none => { u with settled := true, findings? := some [] }
    | some i =>
      let attempt := i.encode ⟨settings, u.point, name⟩ ops
      { u with
        code := attempt.result.getD []
        size := match attempt.result with
          | some code => code.length
          | none => u.size
        settled := !i.isPositionSensitive && !ops.any Operand.isReference
        findings? := some attempt.findings }

/-- Encodes a unit unless it is static. -/
def compile (settings : Settings) (u : CodeUnit) : CodeUnit :=
  if u.isStatic then u else u.recompile settings

/-! ## Placement -/

/-- Puts the unit and its labels at an address. -/
def placeAt (point : UInt32) (u : CodeUnit) : CodeUnit :=
  { u with point, labels := u.labels.map fun l => { l with offset := point - u.origin } }

/-- Gives the references of an instruction their values, as far as they are known. -/
def resolve (value? : Text → Option UInt32) (u : CodeUnit) : CodeUnit :=
  match u.content with
  | .data _ => u
  | .instruction name ops =>
    { u with
      content := .instruction name (ops.map fun op =>
        if op.isReference then
          match value? op.symbolName with
          | some address => op.resolve address.toNat
          | none => op
        else op) }

/-- Bytes with their addresses, which count on from the given one. -/
def bytesFrom : UInt32 → Code → List (UInt32 × UInt8)
  | _, [] => []
  | address, b :: code => (address, b) :: bytesFrom (address + 1) code

/-- The bytes of the unit with their addresses. -/
def codes (u : CodeUnit) : List (UInt32 × UInt8) := bytesFrom u.point u.code

/-- The address after the unit. -/
def endPoint (u : CodeUnit) : UInt32 := u.point + toWord u.size

/-- The unit reserves the address. -/
def reserves (u : CodeUnit) (address : UInt32) : Bool :=
  u.isReservation && ((address - u.point).toNat : Int) < u.size

/-- The byte of the unit's code at an address is the one of the given index. -/
def indexOf? (u : CodeUnit) (address : UInt32) : Option Nat :=
  if u.point ≤ address && address < u.point + u.code.length.toUInt32 then
    some (address - u.point).toNat
  else none

end CodeUnit
end Mcs51
