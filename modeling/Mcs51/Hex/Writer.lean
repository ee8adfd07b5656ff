import Mcs51.Hex.Record
import Mcs51.Message
import Mcs51.NameTable

/-!
# Writing HEX files

A writer collects bytes that follow one another into data records of a given size. It either fills
every record, or keeps the bytes of one write together in a record when they fit one. A record that
does not fit the address space is refused and lost; writing goes on after it.
-/

namespace Mcs51.Hex

/-- Why writing failed. -/
inductive WriteError where
  | recordSize (size : Int)
  | addressRange (address : UInt32)
  deriving Repr, DecidableEq

/-- The wording of a failure. -/
def WriteError.message : WriteError → Text
  | .recordSize size => (Message.mk "record size %v out of range 1..255" [size]).render
  | .addressRange address =>
    (Message.mk "record at %#x extends past 0xffff" [address.toNat]).render

/-- Where a record may end. -/
inductive Wrap where
  /-- Between writes, as long as a write fits a record. -/
  | instruction
  /-- At any byte. -/
  | byte
  deriving Repr, DecidableEq

/-- The names of the ways to end records. -/
def Wrap.table : NameTable := ⟨"Mode", [(0, "instruction"), (1, "byte")]⟩

/-- A writer and the bytes it has not written yet. -/
structure Writer where
  /-- The largest number of data bytes in a record. -/
  size : Nat
  wrap : Wrap
  /-- The records written, the last one first. -/
  written : List Record := []
  /-- The address of the first byte of the buffer. -/
  address : UInt32 := 0
  buffer : List UInt8 := []
  deriving Repr, DecidableEq

namespace Writer

/-- A writer with records of at most `size` data bytes. -/
def new (size : Int) (wrap : Wrap) : Except WriteError Writer :=
  if 1 ≤ size ∧ size ≤ 255 then .ok { size := size.toNat, wrap } else .error (.recordSize size)

/-- The records written, in file order. -/
def records (w : Writer) : List Record := w.written.reverse

/-- The text written. -/
def text (w : Writer) : Text := w.records.flatMap Record.line

/-- Writes a record. -/
def emit (w : Writer) (r : Record) : Writer × Option WriteError :=
  if r.fits then ({ w with written := r :: w.written }, none)
  else (w, some (.addressRange r.address))

/-- Writes the buffer as a data record, if it holds bytes. -/
def flush (w : Writer) : Writer × Option WriteError :=
  if w.buffer.isEmpty then (w, none)
  else
    let (next, error?) := w.emit ⟨w.address, .data, w.buffer⟩
    ({ next with address := w.address + w.buffer.length.toUInt32, buffer := [] }, error?)

/-- Adds bytes to the buffer; `address` is that of the first. -/
def append (w : Writer) (address : UInt32) (code : List UInt8) : Writer :=
  { w with
    address := if w.buffer.isEmpty then address else w.address
    buffer := w.buffer ++ code }

/-- Goes on after a step unless it failed. -/
def andThen (step : Writer × Option WriteError) (next : Writer → Writer × Option WriteError) :
    Writer × Option WriteError :=
  match step with
  | (w, none) => next w
  | (w, some e) => (w, some e)

/-- Adds bytes one by one and writes each record that is full. -/
def writeBytes : Writer → UInt32 → List UInt8 → Writer × Option WriteError
  | w, _, [] => (w, none)
  | w, address, b :: code =>
    let w := w.append address [b]
    andThen (if w.buffer.length = w.size then w.flush else (w, none))
      fun w => writeBytes w (address + 1) code

/-- Adds bytes that fit one record, and keeps them together. -/
def writeWhole (w : Writer) (address : UInt32) (code : List UInt8) : Writer × Option WriteError :=
  andThen (if w.size < w.buffer.length + code.length then w.flush else (w, none))
    fun w => (w.append address code, none)

/-- Writes the bytes of one instruction, or of data, at an address. -/
def write (w : Writer) (address : UInt32) (code : List UInt8) : Writer × Option WriteError :=
  andThen
    (if w.buffer ≠ [] ∧ address ≠ w.address + w.buffer.length.toUInt32 then w.flush else (w, none))
    fun w =>
      if w.wrap = .instruction ∧ code.length ≤ w.size then w.writeWhole address code
      else w.writeBytes address code

/-- Writes what is left, and the end of the file. -/
def close (w : Writer) : Writer × Option WriteError :=
  andThen w.flush fun w => w.emit ⟨0, .endOfFile, []⟩

/-- Writes several pieces of code, as long as none fails. -/
def writeAll (w : Writer) : List (UInt32 × List UInt8) → Writer × Option WriteError
  | [] => (w, none)
  | (address, code) :: rest => andThen (w.write address code) fun w => writeAll w rest

end Writer
end Mcs51.Hex
