import Mcs51.Layout

/-!
# Programs

A program is the settled units in the order of their addresses, with the addresses of the labels. It
can be looked at in several ways: as bytes with addresses, as a memory image, and from an address
back to the unit whose code is there.
-/

namespace Mcs51

/-- The size of code memory. -/
def codeSize : Nat := 0x10000

/-- The byte of memory that holds no code. -/
def fillByte : UInt8 := 0xff

/-- An assembled program. -/
structure Program where
  /-- The units in the order of their addresses; units at one address in source order. -/
  units : List CodeUnit
  /-- The labels and their addresses, in source order. -/
  labels : List (Text × UInt32)
  deriving Repr, DecidableEq

namespace Program

/-- The program of settled units in source order. -/
def ofUnits (units : List CodeUnit) : Program :=
  { units := units.mergeSort fun u v => decide (u.point ≤ v.point), labels := Layout.labels units }

/-! ## Checks -/

/-- Checks units in the order of addresses, after units that end at `reach`, the last of which is
`last?`. -/
def checkFrom : UInt32 → Option CodeUnit → List CodeUnit → List Finding
  | _, _, [] => []
  | reach, last?, u :: units =>
    if u.size = 0 then checkFrom reach last? units
    else
      let overlap := match last? with
        | some last =>
          if u.point < reach then
            [Finding.warning (.overlap u.point last.point) u.text u.position]
          else []
        | none => []
      let pastEnd :=
        if codeSize < u.endPoint.toNat then [Finding.error (.pastEnd u.point) u.text u.position]
        else []
      overlap ++ pastEnd ++ checkFrom (max reach u.endPoint) (some u) units

/-- What there is to say about units that overlap or run past the end of code memory. -/
def check (p : Program) : List Finding := checkFrom 0 none p.units

/-! ## Views -/

/-- All bytes with their addresses, unit by unit. -/
def codes (p : Program) : List (UInt32 × UInt8) := p.units.flatMap CodeUnit.codes

/-- The first unit with code at an address, and which byte of its code is there. -/
def locate (p : Program) (address : UInt32) : Option (CodeUnit × Nat) :=
  p.units.findSome? fun u => (u.indexOf? address).map fun index => (u, index)

/-- The labels in the order of their names. -/
def symbols (p : Program) : List (Text × UInt32) :=
  p.labels.mergeSort fun a b => Text.le a.1 b.1

/-- The length of the image: the end of the highest unit, within code memory. -/
def extent (p : Program) : Nat :=
  min ((p.units.map CodeUnit.endPoint).foldl max 0).toNat codeSize

/-- The byte at an address that holds no code: zero in reserved space. -/
def background (p : Program) (address : UInt32) : UInt8 :=
  if p.units.any fun u => u.reserves address then 0 else fillByte

/-- Stores bytes in memory, those outside it left out. -/
def store (memory : Array UInt8) (codes : List (UInt32 × UInt8)) : Array UInt8 :=
  codes.foldl (fun memory (address, b) => memory.setIfInBounds address.toNat b) memory

/-- The code memory from address zero up to the end of the highest unit. -/
def image (p : Program) : List UInt8 :=
  let reserved : Program := { p with units := p.units.filter CodeUnit.isReservation }
  let memory := (Array.range p.extent).map fun address => reserved.background address.toUInt32
  (store memory p.codes).toList

end Program
end Mcs51
