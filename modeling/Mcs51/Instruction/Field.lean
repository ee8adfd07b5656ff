import Mcs51.Attempt
import Mcs51.Operand
import Mcs51.Settings

/-!
# Operand fields

How an operand becomes a field of an instruction: a byte address, a bit address, an immediate byte
or word, a register number, or a code address. An operand of another kind is a mismatch, about which
there is nothing to say; an operand of the right kind with a value that does not fit is an error.
-/

namespace Mcs51

/-- The bytes of an instruction. -/
abbrev Code := List UInt8

/-- Takes a soft violation as the policy says. -/
def Settings.take (settings : Settings) (situation : Situation) (complaint : Complaint)
    (text : Text) (pos : Position) : Attempt Unit :=
  let setting := settings.policy situation
  if setting = .error then .fail (.error complaint text pos)
  else if setting = .warn then .remark (.warning complaint text pos)
  else .done ()

namespace Operand

/-- The low byte of a value. -/
def lowByte (value : Int) : UInt8 := (value % 256).toNat.toUInt8

/-- An error about the operand. -/
def fail {α : Type} (op : Operand) (complaint : Complaint) : Attempt α :=
  .fail (.error complaint op.text op.position)

/-- The address that an operand is, with its space. -/
def address? (op : Operand) : Option (Space × Int) :=
  match op.form with
  | .address space value => some (space, value)
  | .symbol (some value) => some (.any, value)
  | _ => none

/-- The constant that an operand is. -/
def constant? (op : Operand) : Option Int :=
  match op.form with
  | .constant value => some value
  | .symbolConstant _ value => some (value.getD 0)
  | _ => none

/-- A value from zero to `limit`. -/
def within (op : Operand) (limit : Int) (complaint : Complaint) (value : Int) : Attempt Int :=
  if 0 ≤ value && value ≤ limit then .done value else op.fail complaint

/-- The operand as a byte address. -/
def direct (op : Operand) : Attempt UInt8 :=
  match op.address? with
  | some (space, value) =>
    if space = .bit then .mismatch else lowByte <$> op.within 0xff .directTooBig value
  | none => .mismatch

/-- The operand as a bit address. -/
def bit (op : Operand) : Attempt UInt8 :=
  match op.address? with
  | some (space, value) =>
    if space = .byte then .mismatch else lowByte <$> op.within 0xff .bitTooBig value
  | none => .mismatch

/-- The operand as a negated bit address. -/
def negatedBit (op : Operand) : Attempt UInt8 :=
  match op.form with
  | .negated value => lowByte <$> op.within 0xff .bitTooBig value
  | _ => .mismatch

/-- The operand as an immediate byte. -/
def immediate (op : Operand) : Attempt UInt8 :=
  match op.constant? with
  | some value => lowByte <$> op.within 0xff .constantTooBig value
  | none => .mismatch

/-- The operand as an immediate word, the high byte first. -/
def immediateWord (op : Operand) : Attempt Code :=
  match op.constant? with
  | some value =>
    (fun v => [lowByte (v / 256), lowByte v]) <$> op.within 0xffff .constantTooBig value
  | none => .mismatch

/-- The operand as one of the eight registers. -/
def register (op : Operand) : Attempt UInt8 :=
  match op.register? with
  | some n => if n ≤ 7 then .done n.toUInt8 else op.fail (.noSuchRegister op.name)
  | none => .mismatch

/-- The operand as one of the two registers that can point. -/
def pointer (op : Operand) : Attempt UInt8 :=
  match op.indirectRegister? with
  | some n => if n ≤ 1 then .done n.toUInt8 else op.fail (.notPointer op.name)
  | none => .mismatch

/-- The operand is the given reserved name. -/
def isReservedAs (r : Reserved) (op : Operand) : Bool := op.form == .reserved r

/-- The operand is the given pointer. -/
def pointsTo (p : Pointer) (op : Operand) : Bool := op.form == .indirect p

/-- The operand as a code address: an address, or an offset from the instruction's own address. -/
def target (settings : Settings) (point : UInt32) (op : Operand) : Attempt UInt32 :=
  match op.form with
  | .offset value => do
    settings.take .addressOffset (.offsetAsTarget op.text) op.text op.position
    let address ← op.within 0xffff .codeAddressTooBig (point.toNat + value)
    return address.toNat.toUInt32
  | _ => match op.address? with
    | some (.any, value) => do
      let address ← op.within 0xffff .codeAddressTooBig value
      return address.toNat.toUInt32
    | _ => .mismatch

/-- The distance from the next instruction to a target. -/
def distance (next target : UInt32) : Int := (target.toNat : Int) - next.toNat

/-- The distance fits a signed byte. -/
def isShort (distance : Int) : Bool := -128 ≤ distance && distance ≤ 127

/-- The distance to a target as a signed byte. -/
def relative (op : Operand) (next target : UInt32) : Attempt UInt8 :=
  let delta := distance next target
  if isShort delta then .done (lowByte delta) else op.fail .jumpTooFar

end Operand
end Mcs51
