import Mcs51.Proofs.HexReader
import Mcs51.Proofs.HexRecordSize

/-!
# Reading back what was written

A writer is seen as the bytes it was given, each with its address: those of the records written so
far, and those that wait in the buffer (`Writer.contents`). Flushing moves bytes from one place to
the other, and a write adds its bytes at the end, whatever records they end up in.

* `Writer.Holds` says what the contents are and that the records lie in the address space; a write
  keeps it (`Holds.added`), so all writes do (`Holds.addedAll`).
* `readFile?_close`: a file that is closed reads as the contents of its writer.
* `readFile?_writeAll`: reading gives back all writes, byte by byte and in order.
-/

namespace Mcs51.Hex

/-- The bytes of a record with their addresses. -/
def Record.located (r : Record) : List (Nat × UInt8) := locate r.address.toNat r.data

namespace Writer

/-! ## The contents of a writer -/

/-- The bytes that a writer was given, with their addresses. -/
def contents (w : Writer) : List (Nat × UInt8) :=
  w.records.flatMap Record.located ++ locate w.address.toNat w.buffer

/-- The writer was given the bytes, and its records are data in the address space. -/
structure Holds (w : Writer) (bytes : List (Nat × UInt8)) : Prop where
  contents : w.contents = bytes
  placed : ∀ r ∈ w.written, r.kind = .data ∧ Fits r.address r.data

variable {w : Writer} {address : UInt32} {code : List UInt8} {bytes : List (Nat × UInt8)}

/-- Flushing moves the buffer into a record. -/
theorem Holds.flushed (h : w.Holds bytes) (hspace : w.InSpace) : w.flushed.Holds bytes := by
  by_cases hne : w.buffer = []
  · rw [flushed_of_nil hne]
    exact h
  · rw [flushed_of_ne_nil hspace hne]
    constructor
    · rw [← h.contents]
      simp [Writer.contents, records, Record.located, locate]
    · intro r hr
      rcases List.mem_cons.mp hr with rfl | hr
      · exact ⟨rfl, hspace⟩
      · exact h.placed r hr

/-- Bytes that continue the buffer come after it. -/
theorem Holds.append (h : w.Holds bytes) (hnext : w.Continues address) (code : List UInt8) :
    (w.append address code).Holds (bytes ++ locate address.toNat code) := by
  refine ⟨?_, h.placed⟩
  rw [← h.contents]
  -- an empty buffer takes the address of the bytes; any other has to end there
  by_cases hempty : w.buffer = []
  · simp [Writer.contents, records, Writer.append, hempty, locate]
  · have haddress := hnext hempty
    simp [Writer.contents, records, Writer.append, hempty, locate_append, haddress]

theorem Holds.addByte (h : w.Holds bytes) (hspace : w.InSpace) (hnext : w.Continues address)
    {b : UInt8} (hfits : Fits address [b]) :
    (w.addByte address b).Holds (bytes ++ locate address.toNat [b]) := by
  have happend := h.append hnext [b]
  unfold Writer.addByte
  simp only
  split
  · exact happend.flushed (hspace.append hnext hfits)
  · exact happend

theorem Holds.addBytes : ∀ {code : List UInt8} {w : Writer} {address : UInt32}
    {bytes : List (Nat × UInt8)}, w.Holds bytes → w.InSpace → w.Continues address →
      Fits address code → (w.addBytes address code).Holds (bytes ++ locate address.toNat code)
  | [], w, address, bytes, h, _, _, _ => by simpa [Writer.addBytes, locate] using h
  | b :: code, w, address, bytes, h, hspace, hnext, hfits => by
    have hbyte := h.addByte hspace hnext hfits.head
    have hall := hbyte.addBytes (hspace.addByte hnext hfits.head) (hnext.addByte hfits.head)
      hfits.tail
    have hone : (address + 1).toNat = address.toNat + 1 := by
      have hle := hfits.head (by simp)
      exact toNat_add_length hle
    rw [hone, List.append_assoc] at hall
    exact hall

theorem Holds.addWhole (h : w.Holds bytes) (hspace : w.InSpace) (hnext : w.Continues address) :
    (w.addWhole address code).Holds (bytes ++ locate address.toNat code) := by
  unfold Writer.addWhole
  split
  · exact (h.flushed hspace).append (continues_of_buffer_eq_nil w.flushed_buffer _) code
  · exact h.append hnext code

theorem Holds.joined (h : w.Holds bytes) (hspace : w.InSpace) (address : UInt32) :
    (w.joined address).Holds bytes := by
  unfold Writer.joined
  split
  · exact h.flushed hspace
  · exact h

/-- **A write adds its bytes at the end of the contents.** -/
theorem Holds.added (h : w.Holds bytes) (hspace : w.InSpace) (hfits : Fits address code) :
    (w.added address code).Holds (bytes ++ locate address.toNat code) := by
  have hjoined := h.joined hspace address
  unfold Writer.added
  split
  · exact hjoined.addWhole (hspace.joined address) (hspace.continues_joined address)
  · exact hjoined.addBytes (hspace.joined address) (hspace.continues_joined address) hfits

/-- The bytes of writes with their addresses. -/
def locateAll (pieces : List (UInt32 × List UInt8)) : List (Nat × UInt8) :=
  pieces.flatMap fun piece => locate piece.1.toNat piece.2

/-- **Writes add their bytes in order.** -/
theorem Holds.addedAll : ∀ {pieces : List (UInt32 × List UInt8)} {w : Writer}
    {bytes : List (Nat × UInt8)}, w.Holds bytes → w.InSpace →
      (∀ piece ∈ pieces, Fits piece.1 piece.2) →
        (w.addedAll pieces).Holds (bytes ++ locateAll pieces)
  | [], w, bytes, h, _, _ => by simpa [Writer.addedAll, locateAll] using h
  | (address, code) :: pieces, w, bytes, h, hspace, hfits => by
    have hfirst : Fits address code := hfits _ List.mem_cons_self
    obtain ⟨_, hnext⟩ := write_eq hspace hfirst
    have hall := (h.added hspace hfirst).addedAll hnext
      fun piece hp => hfits piece (List.mem_cons_of_mem _ hp)
    rw [List.append_assoc] at hall
    exact hall

/-! ## Files -/

/-- No write overfills the buffer if records may end at any byte, or if all writes fit a record. -/
theorem not_overfilled : ∀ {pieces : List (UInt32 × List UInt8)} {w : Writer}, w.InSpace →
    (∀ piece ∈ pieces, Fits piece.1 piece.2) →
      (w.wrap = .byte ∨ ∀ piece ∈ pieces, piece.2.length ≤ w.size) → ¬w.Overfilled pieces
  | [], _, _, _, _ => id
  | (address, code) :: pieces, w, hspace, hfits, hwrap => by
    obtain ⟨hwrite, hnext⟩ := write_eq hspace (hfits _ List.mem_cons_self)
    rintro (⟨hinstruction, _, _, hlong⟩ | hlater)
    · rcases hwrap with hbyte | hshort
      · rw [hbyte] at hinstruction
        cases hinstruction
      · exact absurd (hshort _ List.mem_cons_self) (Nat.not_le_of_lt hlong)
    · rw [hwrite] at hlater
      refine not_overfilled hnext (fun piece hp => hfits piece (List.mem_cons_of_mem _ hp)) ?_
        hlater
      rw [added_wrap, added_size]
      exact hwrap.imp id fun hshort piece hp => hshort piece (List.mem_cons_of_mem _ hp)

/-- The writer was given the bytes, and nothing is wrong with its records and its buffer. -/
structure Complete (w : Writer) (bytes : List (Nat × UInt8)) : Prop where
  holds : w.Holds bytes
  sized : w.Sized
  small : w.size ≤ 255
  space : w.InSpace

/-- **A file that is closed reads as the contents of its writer.** -/
theorem readFile?_close (h : w.Complete bytes) :
    ∃ final, w.close = (final, none) ∧ readFile? final.text = some bytes := by
  have hflushed := h.holds.flushed h.space
  have hrecords := (h.sized.flushed h.space).records
  have hreadable : ∀ r ∈ w.flushed.records, r.Readable := by
    intro r hr
    rw [records, List.mem_reverse] at hr
    obtain ⟨hkind, hfits⟩ := hflushed.placed r hr
    obtain ⟨hleast, hmost⟩ := hrecords r hr hkind
    have hend := hfits (List.length_pos_iff.mp hleast)
    have hsmall := h.small
    rw [flushed_size] at hmost
    exact ⟨hkind, by omega, by omega⟩
  have hcontents : w.flushed.records.flatMap Record.located = bytes := by
    have hall := hflushed.contents
    rwa [Writer.contents, flushed_buffer, locate, List.append_nil] at hall
  refine ⟨_, close_eq h.space, ?_⟩
  rw [text, records, List.reverse_cons]
  exact (readFile?_lines hreadable).trans (congrArg some hcontents)

/-- **A new writer takes all writes in the address space that do not overfill its buffer.** -/
theorem writeAll_new {size : Int} {wrap : Wrap} (hsize : 1 ≤ size ∧ size ≤ 255)
    {pieces : List (UInt32 × List UInt8)} (hfits : ∀ piece ∈ pieces, Fits piece.1 piece.2)
    (hwrap : wrap = .byte ∨ ∀ piece ∈ pieces, (piece.2.length : Int) ≤ size) :
    ∃ w last, Writer.new size wrap = .ok w ∧ w.writeAll pieces = (last, none) ∧
      last.Complete (locateAll pieces) := by
  have hnew : Writer.new size wrap = .ok { size := size.toNat, wrap } := if_pos hsize
  have hspace : ({ size := size.toNat, wrap } : Writer).InSpace := inSpace_of_buffer_eq_nil rfl
  have hempty : ({ size := size.toNat, wrap } : Writer).Holds [] := ⟨rfl, by simp⟩
  have hshort : wrap = .byte ∨ ∀ piece ∈ pieces, piece.2.length ≤ size.toNat :=
    hwrap.imp id fun hle piece hp => by
      have := hle piece hp
      omega
  obtain ⟨hall, hend⟩ := writeAll_eq hspace hfits
  refine ⟨_, _, hnew, hall, ?_⟩
  constructor
  case holds => exact hempty.addedAll hspace hfits
  case sized =>
    exact (addedAll_sized (sized_new hnew) hspace hfits).1 (not_overfilled hspace hfits hshort)
  case small =>
    rw [addedAll_size]
    show size.toNat ≤ 255
    omega
  case space => exact hend

/-- **Reading gives back what was written.** No call fails, and the file holds the bytes of all
writes at their addresses, in order, before its only end-of-file record. -/
theorem readFile?_writeAll (size : Int) (wrap : Wrap) (hsize : 1 ≤ size ∧ size ≤ 255)
    (pieces : List (UInt32 × List UInt8)) (hfits : ∀ piece ∈ pieces, Fits piece.1 piece.2)
    (hwrap : wrap = .byte ∨ ∀ piece ∈ pieces, (piece.2.length : Int) ≤ size) :
    ∃ w final, Writer.new size wrap = .ok w ∧
      andThen (w.writeAll pieces) close = (final, none) ∧
        readFile? final.text
          = some (pieces.flatMap fun piece => locate piece.1.toNat piece.2) := by
  obtain ⟨w, last, hnew, hall, hcomplete⟩ := writeAll_new hsize hfits hwrap
  obtain ⟨final, hclose, hread⟩ := readFile?_close hcomplete
  refine ⟨w, final, hnew, ?_, hread⟩
  rw [hall]
  exact hclose

/-- Writes that continue each other, jump to the end of memory, are empty and go back. -/
theorem readFile?_writeAll_jumps : ∃ w final, Writer.new 3 .instruction = .ok w ∧
    andThen (w.writeAll [(0x10, [1, 2]), (0x12, [3, 4]), (0xfffe, [5, 6]), (0x20000, []), (0, [7])])
        close = (final, none) ∧
      readFile? final.text = some [(0x10, 1), (0x11, 2), (0x12, 3), (0x13, 4), (0xfffe, 5),
        (0xffff, 6), (0, 7)] :=
  readFile?_writeAll 3 .instruction (by decide)
    [(0x10, [1, 2]), (0x12, [3, 4]), (0xfffe, [5, 6]), (0x20000, []), (0, [7])] (by simp [Fits])
    (Or.inr (by decide))

end Writer
end Mcs51.Hex
