import Mcs51.Text.Basic

/-!
# Special function registers

The registers of the 8051 that have direct addresses, those bits of them that have names, and the
bit addresses: the internal memory bytes `0x20` to `0x2f` hold bits `0` to `0x7f`, and a register
whose address is a multiple of eight holds the bits that start at its own address.
-/

namespace Mcs51.SpecialRegister

/-- The accumulator as a direct address. -/
def accumulator : Nat := 0xe0

/-- The carry flag as a bit address. -/
def carry : Nat := 0xd7

/-- The registers and their direct addresses. -/
def bytes : List (String × Nat) :=
  [("p0", 0x80), ("sp", 0x81), ("dpl", 0x82), ("dph", 0x83), ("pcon", 0x87), ("tcon", 0x88),
   ("tmod", 0x89), ("tl0", 0x8a), ("tl1", 0x8b), ("th0", 0x8c), ("th1", 0x8d), ("p1", 0x90),
   ("scon", 0x98), ("sbuf", 0x99), ("p2", 0xa0), ("ie", 0xa8), ("p3", 0xb0), ("ip", 0xb8),
   ("psw", 0xd0), ("acc", accumulator), ("b", 0xf0)]

/-- The named bits and their bit addresses. -/
def bits : List (String × Nat) :=
  [("it0", 0x88), ("ie0", 0x89), ("it1", 0x8a), ("ie1", 0x8b), ("tr0", 0x8c), ("tf0", 0x8d),
   ("tr1", 0x8e), ("tf1", 0x8f), ("ri", 0x98), ("ti", 0x99), ("rb8", 0x9a), ("tb8", 0x9b),
   ("ren", 0x9c), ("sm2", 0x9d), ("sm1", 0x9e), ("sm0", 0x9f), ("ex0", 0xa8), ("et0", 0xa9),
   ("ex1", 0xaa), ("et1", 0xab), ("es", 0xac), ("ea", 0xaf), ("px0", 0xb8), ("pt0", 0xb9),
   ("px1", 0xba), ("pt1", 0xbb), ("ps", 0xbc), ("p", 0xd0), ("ov", 0xd2), ("rs0", 0xd3),
   ("rs1", 0xd4), ("f0", 0xd5), ("ac", 0xd6), ("cy", carry)]

/-- Looks a name up in a table. -/
def find? (table : List (String × Nat)) (name : Text) : Option Nat :=
  (table.find? fun entry => Text.ofString entry.1 == name).map Prod.snd

/-- The direct address of a register. -/
def byte? (name : Text) : Option Nat := find? bytes name

/-- The bit address of a named bit. -/
def bit? (name : Text) : Option Nat := find? bits name

/-- The address of a register or of a named bit. -/
def address? (name : Text) : Option Nat := byte? name <|> bit? name

/-! ## Bit addresses -/

/-- Why a bit of a byte has no address. -/
inductive BitError where
  | bitRange
  | notAddressable
  deriving Repr, DecidableEq

/-- The wording of a missing bit address. -/
def BitError.message : BitError → String
  | .bitRange => "bit number out of range 0..7"
  | .notAddressable => "byte is not bit addressable"

/-- The bits of the byte have addresses. -/
def isBitAddressable (address : Int) : Bool :=
  (0x20 ≤ address && address ≤ 0x2f) || (0x80 ≤ address && address ≤ 0xff && address % 8 == 0)

/-- The address of a bit of a byte. -/
def bitAddress (address bit : Int) : Except BitError Int :=
  if bit < 0 || 7 < bit then .error .bitRange
  else if !isBitAddressable address then .error .notAddressable
  else if address ≤ 0x2f then .ok ((address - 0x20) * 8 + bit)
  else .ok (address + bit)

end Mcs51.SpecialRegister
