import Mcs51.Hex.Writer
import Mcs51.Program

/-!
# Program files

A program is written as an Intel HEX file, one unit after the other.
-/

namespace Mcs51.Program

/-- The text of a file, and why it ends early, if it does. -/
structure Emission where
  text : Text
  error? : Option Hex.WriteError := none
  deriving Repr, DecidableEq

/-- The pieces of code in a program, in the order of their addresses. -/
def pieces (p : Program) : List (UInt32 × Code) :=
  (p.units.filter fun u => !u.code.isEmpty).map fun u => (u.point, u.code)

/-- Writes a program as Intel HEX. -/
def writeHex (p : Program) (size : Int) (wrap : Hex.Wrap) : Emission :=
  match Hex.Writer.new size wrap with
  | .error e => ⟨[], some e⟩
  | .ok w =>
    let (w, error?) := Hex.Writer.andThen (w.writeAll p.pieces) Hex.Writer.close
    ⟨w.text, error?⟩

end Mcs51.Program
