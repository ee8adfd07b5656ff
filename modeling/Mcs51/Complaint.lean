import Mcs51.Numeral
import Mcs51.SpecialRegister

/-!
# Complaints

Everything the assembler may have to say about a source text, with the wording of each in one place.
-/

namespace Mcs51

/-- What is wrong, or worth a remark. -/
inductive Complaint where
  -- literals and operands
  | badNumeral (error : RadixError)
  | outOfRange (text : Text) (limit : Nat)
  | badConstant (text : Text)
  | notBitRegister (name : Text)
  | bitNotNumber (text : Text)
  | bitOutOfRange (text : Text)
  | noBitAddress (text : Text) (error : SpecialRegister.BitError)
  | notBit (text : Text)
  | badIndirect (text : Text)
  | unknownOperand (text : Text)
  -- lines
  | reservedLabel (name : Text)
  | registerLabel (name : Text)
  | noMnemonic
  | emptyOperand
  | unknownDirective (name : Text)
  | argumentCount (directive : Text) (count : Nat)
  | noData (directive : Text)
  | badString (text : Text)
  -- source preparation
  | badExpression (expression reason : Text)
  | equateShape
  | equateName (name : Text)
  | equateReserved (name : Text)
  | equateDuplicate (name : Text)
  -- encoding
  | unresolved (symbol : Text)
  | tooFewOperands (name : Text) (fewest : Nat)
  | trailingOperand (name : Text)
  | omittedOperand (operand : String) (name : Text)
  | directTooBig
  | bitTooBig
  | constantTooBig
  | noSuchRegister (name : Text)
  | notPointer (name : Text)
  | codeAddressTooBig
  | offsetAsTarget (text : Text)
  | jumpTooFar
  | pageTooFar
  | noBank (register : Text)
  | badOperands (name : Text)
  -- layout
  | duplicateLabel (name : Text)
  | orphanLabel (name : Text)
  | unknownMnemonic (name : Text)
  | strayOperand (text : Text)
  | overlap (here there : UInt32)
  | pastEnd (here : UInt32)
  deriving Repr, DecidableEq

/-- The wording of a complaint. -/
def Complaint.message : Complaint → Message
  | .badNumeral error => ⟨"%v", [error.message]⟩
  | .outOfRange text limit => ⟨"'%v' out of range %v..%#x", [text, (0 : Nat), limit]⟩
  | .badConstant text => ⟨"invalid constant '%v'", [text]⟩
  | .notBitRegister name => ⟨"'%v' is not a bit addressable register", [name]⟩
  | .bitNotNumber text => ⟨"bit number '%v' is not a number", [text]⟩
  | .bitOutOfRange text => ⟨"bit number '%v' out of range 0..7", [text]⟩
  | .noBitAddress text error => ⟨"'%v': %v", [text, error.message]⟩
  | .notBit text => ⟨"'%v' is not a bit address", [text]⟩
  | .badIndirect text => ⟨"invalid indirect operand '%v'", [text]⟩
  | .unknownOperand text => ⟨"unrecognized operand '%v'", [text]⟩
  | .reservedLabel name => ⟨"reserved name '%v' cannot be a label", [name]⟩
  | .registerLabel name => ⟨"SFR name '%v' cannot be a label", [name]⟩
  | .noMnemonic => ⟨"Expected mnemonic or comment", []⟩
  | .emptyOperand => ⟨"empty operand", []⟩
  | .unknownDirective name => ⟨"unknown directive '.%v'", [name]⟩
  | .argumentCount directive count => ⟨"directive %v expects %v argument(s)", [directive, count]⟩
  | .noData directive => ⟨"directive %v expects data", [directive]⟩
  | .badString text => ⟨"invalid string %v", [text]⟩
  | .badExpression expression reason =>
    ⟨"$(%v) is not a valid expression: %v", [expression, reason]⟩
  | .equateShape => ⟨"equate expects a name and a value", []⟩
  | .equateName name => ⟨"'%v' is not a valid equate name", [name]⟩
  | .equateReserved name => ⟨"reserved name '%v' cannot be an equate", [name]⟩
  | .equateDuplicate name => ⟨"equate '%v' duplicated", [name]⟩
  | .unresolved symbol => ⟨"Unresolved symbol '%v'", [symbol]⟩
  | .tooFewOperands name fewest => ⟨"%v expects at least %v operand(s)", [name, fewest]⟩
  | .trailingOperand name => ⟨"unnecessary trailing operand for %v", [name]⟩
  | .omittedOperand operand name => ⟨"omitted operand '%v' for %v", [operand, name]⟩
  | .directTooBig => ⟨"value of direct address too big", []⟩
  | .bitTooBig => ⟨"value of bit address too big", []⟩
  | .constantTooBig => ⟨"value of constant too big", []⟩
  | .noSuchRegister name => ⟨"register %v does not exist", [name]⟩
  | .notPointer name => ⟨"register %v cannot be used indirectly", [name]⟩
  | .codeAddressTooBig => ⟨"code address too big", []⟩
  | .offsetAsTarget text => ⟨"address offset '%v' used as a jump target", [text]⟩
  | .jumpTooFar => ⟨"jump too far for short jump", []⟩
  | .pageTooFar => ⟨"jump/call address too far for absolute addressing", []⟩
  | .noBank register =>
    ⟨"register %v has no direct address without a selected register bank", [register]⟩
  | .badOperands name => ⟨"invalid operands for %v", [name]⟩
  | .duplicateLabel name => ⟨"label '%v' duplicated", [name]⟩
  | .orphanLabel name => ⟨"label '%v' has no instruction after it", [name]⟩
  | .unknownMnemonic name => ⟨"unknown mnemonic '%v'", [name]⟩
  | .strayOperand text => ⟨"operand '%v' without an instruction", [text]⟩
  | .overlap here there => ⟨"code at %#x overlaps code at %#x", [here.toNat, there.toNat]⟩
  | .pastEnd here => ⟨"code at %#x extends past 0xffff", [here.toNat]⟩

end Mcs51
