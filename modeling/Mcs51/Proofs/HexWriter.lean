import Mcs51.Hex.Writer

/-!
# What the HEX writer does

The steps of a writer whose bytes all lie in the address space of 64 KiB. `Fits` says so of bytes at
an address, `Writer.InSpace` of the buffer, and `Writer.Continues` says that an address is the next
one after the buffer. No step fails then, so a step is a function from writers to writers:

* `flush_eq`: flushing writes the buffer as a record (`flushed`);
* `write_eq`: a write starts a new record if its address does not continue the buffer (`joined`),
  and then adds its bytes together (`addWhole`) or one by one (`addBytes`);
* `writeAll_eq`, `close_eq`: writes follow one another, and closing ends the file.
-/

namespace Mcs51.Hex

/-- The bytes at an address lie in the address space. -/
def Fits (address : UInt32) (code : List UInt8) : Prop :=
  code ≠ [] → address.toNat + code.length ≤ 0x10000

/-- The first byte is at its address and the others are after it. -/
theorem Fits.tail {address : UInt32} {b : UInt8} {code : List UInt8}
    (h : Fits address (b :: code)) : Fits (address + 1) code := by
  intro hne
  have hle := h (by simp)
  have hpos := List.length_pos_iff.mpr hne
  have hone : (1 : UInt32).toNat = 1 := rfl
  rw [List.length_cons] at hle
  rw [UInt32.toNat_add]
  omega

theorem Fits.head {address : UInt32} {b : UInt8} {code : List UInt8}
    (h : Fits address (b :: code)) : Fits address [b] := by
  intro _
  have hle := h (by simp)
  simp only [List.length_cons, List.length_nil] at hle ⊢
  omega

/-- The address after bytes that do not go on past the words of 32 bits. -/
theorem toNat_add_toUInt32 {address : UInt32} {n : Nat} (h : address.toNat + n < 4294967296) :
    (address + n.toUInt32).toNat = address.toNat + n := by
  have hn : n.toUInt32.toNat = n := by
    show n % 2 ^ 32 = n
    omega
  rw [UInt32.toNat_add, hn]
  omega

/-- The address after bytes in the address space. -/
theorem toNat_add_length {address : UInt32} {n : Nat} (h : address.toNat + n ≤ 0x10000) :
    (address + n.toUInt32).toNat = address.toNat + n :=
  toNat_add_toUInt32 (Nat.lt_of_le_of_lt h (by decide))

theorem Record.fits_of_le {r : Record} (h : r.address.toNat + r.data.length ≤ 0x10000) :
    r.fits = true := by
  simp only [Record.fits, decide_eq_true_eq]
  rw [toNat_add_length h]
  exact h

namespace Writer

variable {w : Writer} {address : UInt32} {code : List UInt8}

/-- The buffer lies in the address space. -/
def InSpace (w : Writer) : Prop := Fits w.address w.buffer

/-- The address is the one after the buffer, if the buffer holds bytes. -/
def Continues (w : Writer) (address : UInt32) : Prop :=
  w.buffer ≠ [] → address.toNat = w.address.toNat + w.buffer.length

theorem continues_of_buffer_eq_nil (h : w.buffer = []) (address : UInt32) :
    w.Continues address := fun hne => absurd h hne

theorem inSpace_of_buffer_eq_nil (h : w.buffer = []) : w.InSpace := fun hne => absurd h hne

/-! ## Flushing -/

/-- The writer after its buffer is written. -/
def flushed (w : Writer) : Writer := w.flush.1

theorem flushed_of_nil (h : w.buffer = []) : w.flushed = w := by
  simp [flushed, flush, h]

theorem flushed_of_ne_nil (h : w.InSpace) (hne : w.buffer ≠ []) :
    w.flushed = { w with
      written := ⟨w.address, .data, w.buffer⟩ :: w.written
      address := w.address + w.buffer.length.toUInt32
      buffer := [] } := by
  have hfits : (Record.mk w.address .data w.buffer).fits = true := Record.fits_of_le (h hne)
  simp [flushed, flush, hne, emit, hfits]

/-- Flushing writes the buffer and does not fail. -/
theorem flush_eq (h : w.InSpace) : w.flush = (w.flushed, none) := by
  by_cases hne : w.buffer = []
  · simp [flushed, flush, hne]
  · have hfits : (Record.mk w.address .data w.buffer).fits = true := Record.fits_of_le (h hne)
    simp [flushed, flush, hne, emit, hfits]

@[simp] theorem flushed_buffer (w : Writer) : w.flushed.buffer = [] := by
  unfold flushed flush
  by_cases hne : w.buffer = [] <;> simp [hne]

@[simp] theorem flushed_size (w : Writer) : w.flushed.size = w.size := by
  by_cases hne : w.buffer = []
  · rw [flushed_of_nil hne]
  · by_cases hfits : (Record.mk w.address .data w.buffer).fits = true <;>
      simp [flushed, flush, hne, emit, hfits]

@[simp] theorem flushed_wrap (w : Writer) : w.flushed.wrap = w.wrap := by
  by_cases hne : w.buffer = []
  · rw [flushed_of_nil hne]
  · by_cases hfits : (Record.mk w.address .data w.buffer).fits = true <;>
      simp [flushed, flush, hne, emit, hfits]

theorem inSpace_flushed (w : Writer) : w.flushed.InSpace :=
  inSpace_of_buffer_eq_nil w.flushed_buffer

/-! ## Appending -/

theorem append_buffer (w : Writer) (address : UInt32) (code : List UInt8) :
    (w.append address code).buffer = w.buffer ++ code := rfl

@[simp] theorem append_size (w : Writer) (address : UInt32) (code : List UInt8) :
    (w.append address code).size = w.size := rfl

@[simp] theorem append_wrap (w : Writer) (address : UInt32) (code : List UInt8) :
    (w.append address code).wrap = w.wrap := rfl

@[simp] theorem append_written (w : Writer) (address : UInt32) (code : List UInt8) :
    (w.append address code).written = w.written := rfl

/-- Bytes that continue the buffer keep it in the address space. -/
theorem InSpace.append (h : w.InSpace) (hnext : w.Continues address) (hfits : Fits address code) :
    (w.append address code).InSpace := by
  intro hne
  by_cases hempty : w.buffer = []
  · simp only [Writer.append, hempty, List.isEmpty_nil, if_true, List.nil_append] at hne ⊢
    exact hfits hne
  · have hbuffer := h hempty
    have haddress := hnext hempty
    have hkeep : (w.append address code).address = w.address := by simp [Writer.append, hempty]
    rw [hkeep, append_buffer, List.length_append]
    by_cases hcode : code = []
    · simpa [hcode] using hbuffer
    · have hend := hfits hcode
      omega

/-- After one more byte the next address is the next one. -/
theorem Continues.append (hnext : w.Continues address) {b : UInt8}
    (hfits : Fits address [b]) : (w.append address [b]).Continues (address + 1) := by
  intro _
  have hone : (1 : UInt32).toNat = 1 := rfl
  have hend := hfits (by simp)
  simp only [List.length_cons, List.length_nil] at hend
  rw [append_buffer, List.length_append, UInt32.toNat_add]
  by_cases hempty : w.buffer = []
  · simp only [Writer.append, hempty, List.isEmpty_nil, if_true, List.length_nil, List.length_cons]
    omega
  · have haddress := hnext hempty
    have hkeep : (w.append address [b]).address = w.address := by simp [Writer.append, hempty]
    rw [hkeep]
    simp only [List.length_cons, List.length_nil]
    omega

/-! ## Bytes one by one -/

/-- Adds one byte, and writes the record if it is full. -/
def addByte (w : Writer) (address : UInt32) (b : UInt8) : Writer :=
  let next := w.append address [b]
  if next.buffer.length = next.size then next.flushed else next

/-- Adds bytes one by one. -/
def addBytes : Writer → UInt32 → List UInt8 → Writer
  | w, _, [] => w
  | w, address, b :: code => (w.addByte address b).addBytes (address + 1) code

@[simp] theorem addByte_size (w : Writer) (address : UInt32) (b : UInt8) :
    (w.addByte address b).size = w.size := by
  unfold addByte
  simp only
  split <;> simp

@[simp] theorem addByte_wrap (w : Writer) (address : UInt32) (b : UInt8) :
    (w.addByte address b).wrap = w.wrap := by
  unfold addByte
  simp only
  split <;> simp

theorem InSpace.addByte (h : w.InSpace) (hnext : w.Continues address) {b : UInt8}
    (hfits : Fits address [b]) : (w.addByte address b).InSpace := by
  unfold Writer.addByte
  simp only
  split
  · exact inSpace_flushed _
  · exact h.append hnext hfits

theorem Continues.addByte (hnext : w.Continues address) {b : UInt8} (hfits : Fits address [b]) :
    (w.addByte address b).Continues (address + 1) := by
  unfold Writer.addByte
  simp only
  split
  · exact continues_of_buffer_eq_nil (flushed_buffer _) _
  · exact hnext.append hfits

/-- Writing bytes one by one does not fail. -/
theorem writeBytes_eq : ∀ {code : List UInt8} {w : Writer} {address : UInt32}, w.InSpace →
    w.Continues address → Fits address code →
      w.writeBytes address code = (w.addBytes address code, none) ∧
        (w.addBytes address code).InSpace
  | [], _, _, h, _, _ => ⟨rfl, h⟩
  | b :: code, w, address, h, hnext, hfits => by
    have hstep : andThen (if (w.append address [b]).buffer.length = (w.append address [b]).size
          then (w.append address [b]).flush else (w.append address [b], none))
        (fun w => writeBytes w (address + 1) code)
        = writeBytes (w.addByte address b) (address + 1) code := by
      rw [flush_eq (h.append hnext hfits.head)]
      unfold addByte
      simp only
      split <;> rfl
    simp only [writeBytes, addBytes]
    rw [hstep]
    exact writeBytes_eq (h.addByte hnext hfits.head) (hnext.addByte hfits.head) hfits.tail

@[simp] theorem addBytes_size : ∀ (code : List UInt8) (w : Writer) (address : UInt32),
    (w.addBytes address code).size = w.size
  | [], _, _ => rfl
  | b :: code, w, address => by
    rw [addBytes, addBytes_size code, addByte_size]

@[simp] theorem addBytes_wrap : ∀ (code : List UInt8) (w : Writer) (address : UInt32),
    (w.addBytes address code).wrap = w.wrap
  | [], _, _ => rfl
  | b :: code, w, address => by
    rw [addBytes, addBytes_wrap code, addByte_wrap]

/-! ## Whole writes -/

/-- Adds bytes together, after the buffer is written if they do not fit beside it. -/
def addWhole (w : Writer) (address : UInt32) (code : List UInt8) : Writer :=
  (if w.size < w.buffer.length + code.length then w.flushed else w).append address code

@[simp] theorem addWhole_size (w : Writer) (address : UInt32) (code : List UInt8) :
    (w.addWhole address code).size = w.size := by
  unfold addWhole
  split <;> simp

@[simp] theorem addWhole_wrap (w : Writer) (address : UInt32) (code : List UInt8) :
    (w.addWhole address code).wrap = w.wrap := by
  unfold addWhole
  split <;> simp

theorem writeWhole_eq (h : w.InSpace) (hnext : w.Continues address) (hfits : Fits address code) :
    w.writeWhole address code = (w.addWhole address code, none) ∧
      (w.addWhole address code).InSpace := by
  unfold writeWhole addWhole
  rw [flush_eq h]
  split
  · exact ⟨rfl, (inSpace_flushed w).append (continues_of_buffer_eq_nil w.flushed_buffer _) hfits⟩
  · exact ⟨rfl, h.append hnext hfits⟩

/-- The writer before the bytes at `address` are added: its buffer is written if it does not end
there. -/
def joined (w : Writer) (address : UInt32) : Writer :=
  if w.buffer ≠ [] ∧ address ≠ w.address + w.buffer.length.toUInt32 then w.flushed else w

@[simp] theorem joined_size (w : Writer) (address : UInt32) : (w.joined address).size = w.size := by
  unfold joined
  split <;> simp

@[simp] theorem joined_wrap (w : Writer) (address : UInt32) : (w.joined address).wrap = w.wrap := by
  unfold joined
  split <;> simp

theorem InSpace.joined (h : w.InSpace) (address : UInt32) : (w.joined address).InSpace := by
  unfold Writer.joined
  split
  · exact inSpace_flushed w
  · exact h

theorem InSpace.continues_joined (h : w.InSpace) (address : UInt32) :
    (w.joined address).Continues address := by
  unfold Writer.joined
  split
  · exact continues_of_buffer_eq_nil w.flushed_buffer _
  · next hnot =>
    intro hne
    have haddress : address = w.address + w.buffer.length.toUInt32 :=
      Classical.byContradiction fun hc => hnot ⟨hne, hc⟩
    rw [haddress, toNat_add_length (h hne)]

/-- The writer after a write. -/
def added (w : Writer) (address : UInt32) (code : List UInt8) : Writer :=
  if w.wrap = .instruction ∧ code.length ≤ w.size then (w.joined address).addWhole address code
  else (w.joined address).addBytes address code

/-- **A write in the address space does not fail.** -/
theorem write_eq (h : w.InSpace) (hfits : Fits address code) :
    w.write address code = (w.added address code, none) ∧ (w.added address code).InSpace := by
  have hjoined := h.joined address
  have hnext := h.continues_joined address
  have hstep : w.write address code
      = if w.wrap = .instruction ∧ code.length ≤ w.size then
          (w.joined address).writeWhole address code
        else (w.joined address).writeBytes address code := by
    unfold write joined
    rw [flush_eq h]
    split
    · simp [andThen]
    · rfl
  rw [hstep]
  unfold added
  split
  · exact writeWhole_eq hjoined hnext hfits
  · exact writeBytes_eq hjoined hnext hfits

@[simp] theorem added_size (w : Writer) (address : UInt32) (code : List UInt8) :
    (w.added address code).size = w.size := by
  unfold added
  split <;> simp

@[simp] theorem added_wrap (w : Writer) (address : UInt32) (code : List UInt8) :
    (w.added address code).wrap = w.wrap := by
  unfold added
  split <;> simp

/-- The writer after several writes. -/
def addedAll (w : Writer) (pieces : List (UInt32 × List UInt8)) : Writer :=
  pieces.foldl (fun w piece => w.added piece.1 piece.2) w

theorem addedAll_cons (w : Writer) (address : UInt32) (code : List UInt8)
    (pieces : List (UInt32 × List UInt8)) :
    w.addedAll ((address, code) :: pieces) = (w.added address code).addedAll pieces := rfl

@[simp] theorem addedAll_size : ∀ (pieces : List (UInt32 × List UInt8)) (w : Writer),
    (w.addedAll pieces).size = w.size
  | [], _ => rfl
  | (address, code) :: pieces, w => by
    rw [addedAll_cons, addedAll_size pieces, added_size]

/-- **Writes in the address space do not fail.** -/
theorem writeAll_eq : ∀ {pieces : List (UInt32 × List UInt8)} {w : Writer}, w.InSpace →
    (∀ piece ∈ pieces, Fits piece.1 piece.2) →
      w.writeAll pieces = (w.addedAll pieces, none) ∧ (w.addedAll pieces).InSpace
  | [], _, h, _ => ⟨rfl, h⟩
  | (address, code) :: pieces, w, h, hfits => by
    obtain ⟨hwrite, hnext⟩ := write_eq h (hfits _ List.mem_cons_self)
    simp only [writeAll, hwrite, andThen]
    exact writeAll_eq hnext fun piece hp => hfits piece (List.mem_cons_of_mem _ hp)

/-- Closing writes the buffer and the end of the file. -/
theorem close_eq (h : w.InSpace) :
    w.close = ({ w.flushed with written := ⟨0, .endOfFile, []⟩ :: w.flushed.written }, none) := by
  unfold close
  rw [flush_eq h]
  rfl

end Writer
end Mcs51.Hex
