import Mcs51.Text.Decimal

/-!
# HEX records

A record of an Intel HEX file: a length, an address of 16 bits, a kind, data bytes, and a checksum
that makes the sum of all bytes zero. It is written as one line of hexadecimal digits after a colon.
-/

namespace Mcs51.Hex

/-- The kinds of records. -/
inductive RecordKind where
  | data
  | endOfFile
  deriving Repr, DecidableEq

/-- The number of a kind. -/
def RecordKind.code : RecordKind → UInt8
  | .data => 0
  | .endOfFile => 1

/-- The byte that makes the sum of a record zero. -/
def checksum (bytes : List UInt8) : UInt8 := -bytes.foldl (· + ·) 0

/-- A record: data at an address. -/
structure Record where
  address : UInt32
  kind : RecordKind
  data : List UInt8
  deriving Repr, DecidableEq

namespace Record

/-- The bytes of a record before its checksum. -/
def body (r : Record) : List UInt8 :=
  [r.data.length.toUInt8, (r.address >>> 8).toUInt8, r.address.toUInt8, r.kind.code] ++ r.data

/-- The line of a record. -/
def line (r : Record) : Text :=
  let bytes := r.body ++ [checksum r.body]
  ':'.toUInt8 :: bytes.flatMap Text.ofByteHex ++ [Text.lineFeed]

/-- The record lies in the address space of 64 KiB. -/
def fits (r : Record) : Bool := (r.address + r.data.length.toUInt32).toNat ≤ 0x10000

end Record
end Mcs51.Hex
