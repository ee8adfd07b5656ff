import Mcs51.Proofs.HexWriter

/-!
# The size of HEX records

Bytes that are added one by one are written as soon as the buffer is exactly full. A buffer that
writes kept together have filled is not written until the next write. If that write is too long for
a record and continues the buffer, its bytes are added one by one to a buffer that is full already,
and the buffer is never exactly full again: it grows past the size of a record (`Overfills`).

* `Sized` is kept by every other write (`Sized.added`).
* `Spoiled` holds after such a write, and is never lost.
* `records_sized_iff`: the records are sized if and only if no such write occurs.
-/

namespace Mcs51.Hex

/-- The length byte of a record. -/
def Record.lengthByte (r : Record) : UInt8 := r.body.headD 0

/-- A record of 1 to `size` data bytes, with their number as its length byte. -/
def Record.Sized (size : Nat) (r : Record) : Prop :=
  1 ≤ r.data.length ∧ r.data.length ≤ size ∧ r.lengthByte.toNat = r.data.length

/-- The length byte of a short record is its number of data bytes. -/
theorem Record.sized_of_le {size : Nat} (hsize : size ≤ 255) {r : Record}
    (h : 1 ≤ r.data.length ∧ r.data.length ≤ size) : r.Sized size := by
  refine ⟨h.1, h.2, ?_⟩
  show r.data.length % 2 ^ 8 = r.data.length
  omega

namespace Writer

/-- The bytes continue a full buffer and are too many for a record. -/
def Overfills (w : Writer) (address : UInt32) (code : List UInt8) : Prop :=
  w.wrap = .instruction ∧ w.buffer.length = w.size ∧
    address = w.address + w.buffer.length.toUInt32 ∧ w.size < code.length

/-- Some write continues a full buffer with too many bytes for a record. -/
def Overfilled : Writer → List (UInt32 × List UInt8) → Prop
  | _, [] => False
  | w, (address, code) :: pieces =>
    w.Overfills address code ∨ (w.write address code).1.Overfilled pieces

instance (w : Writer) (address : UInt32) (code : List UInt8) :
    Decidable (w.Overfills address code) := inferInstanceAs (Decidable (_ ∧ _))

instance decidableOverfilled : ∀ (pieces : List (UInt32 × List UInt8)) (w : Writer),
    Decidable (w.Overfilled pieces)
  | [], _ => inferInstanceAs (Decidable False)
  | (_, _) :: pieces, _ =>
    let _ := decidableOverfilled pieces
    inferInstanceAs (Decidable (_ ∨ _))

/-- The data records are of the right size, and the buffer is not past it. -/
structure Sized (w : Writer) : Prop where
  positive : 0 < w.size
  records : ∀ r ∈ w.written, r.kind = .data → 1 ≤ r.data.length ∧ r.data.length ≤ w.size
  buffer : w.buffer.length ≤ w.size
  byte : w.wrap = .byte → w.buffer.length < w.size

/-- A data record is too long, or will be. -/
def Spoiled (w : Writer) : Prop :=
  (∃ r ∈ w.written, r.kind = .data ∧ w.size < r.data.length) ∨ w.size < w.buffer.length

variable {w : Writer} {address : UInt32} {code : List UInt8}

/-! ## Writes that fit -/

theorem Sized.flushed (h : w.Sized) (hspace : w.InSpace) : w.flushed.Sized := by
  refine ⟨by simpa using h.positive, ?_, by simp, by simpa using fun _ => h.positive⟩
  by_cases hne : w.buffer = []
  · rw [flushed_of_nil hne]
    exact h.records
  · rw [flushed_of_ne_nil hspace hne]
    intro r hr hkind
    rcases List.mem_cons.mp hr with rfl | hr
    · exact ⟨List.length_pos_iff.mpr hne, h.buffer⟩
    · exact h.records r hr hkind

theorem Sized.joined (h : w.Sized) (hspace : w.InSpace) (address : UInt32) :
    (w.joined address).Sized := by
  unfold Writer.joined
  split
  · exact h.flushed hspace
  · exact h

/-- Bytes added together are at most a record. -/
theorem Sized.addWhole (h : w.Sized) (hspace : w.InSpace) (hwrap : w.wrap = .instruction)
    (hlength : code.length ≤ w.size) : (w.addWhole address code).Sized := by
  have hnotByte : (w.addWhole address code).wrap ≠ .byte := by simp [hwrap]
  refine ⟨by simpa using h.positive, ?_, ?_, fun hbyte => absurd hbyte hnotByte⟩
  · rw [addWhole_size]
    unfold Writer.addWhole
    split
    · simpa using (h.flushed hspace).records
    · exact h.records
  · rw [addWhole_size]
    unfold Writer.addWhole
    split
    · simpa [append_buffer] using hlength
    · next hroom =>
      rw [append_buffer, List.length_append]
      exact Nat.le_of_not_lt hroom

/-- A buffer with room has room after one more byte. -/
theorem Sized.addByte (h : w.Sized) (hspace : w.InSpace) (hnext : w.Continues address) {b : UInt8}
    (hfits : Fits address [b]) (hroom : w.buffer.length < w.size) :
    (w.addByte address b).Sized ∧ (w.addByte address b).buffer.length < w.size := by
  have happend : (w.append address [b]).buffer.length = w.buffer.length + 1 := by
    simp [append_buffer]
  unfold Writer.addByte
  simp only
  split
  · next hfull =>
    refine ⟨?_, by simpa using h.positive⟩
    have hbefore : ∀ r ∈ (w.append address [b]).written, r.kind = .data →
        1 ≤ r.data.length ∧ r.data.length ≤ w.size := h.records
    refine ⟨by simpa using h.positive, ?_, by simp, by simpa using fun _ => h.positive⟩
    rw [flushed_of_ne_nil (hspace.append hnext hfits) (by simp [append_buffer])]
    intro r hr hkind
    rcases List.mem_cons.mp hr with rfl | hr
    · exact ⟨by rw [happend]; omega, Nat.le_of_eq hfull⟩
    · exact hbefore r hr hkind
  · next hmore =>
    have hlt : (w.append address [b]).buffer.length < w.size := by
      rw [append_size] at hmore
      omega
    exact ⟨⟨h.positive, h.records, Nat.le_of_lt hlt, fun _ => hlt⟩, hlt⟩

theorem Sized.addBytes : ∀ {code : List UInt8} {w : Writer} {address : UInt32}, w.Sized →
    w.InSpace → w.Continues address → Fits address code → w.buffer.length < w.size →
      (w.addBytes address code).Sized
  | [], _, _, h, _, _, _, _ => h
  | b :: code, w, address, h, hspace, hnext, hfits, hroom => by
    obtain ⟨hsized, hless⟩ := h.addByte hspace hnext hfits.head hroom
    exact hsized.addBytes (hspace.addByte hnext hfits.head) (hnext.addByte hfits.head) hfits.tail
      (by simpa using hless)

/-- A write that is too long for a record finds room in the buffer, unless it overfills it. -/
theorem Sized.room_joined (h : w.Sized) (hnot : ¬w.Overfills address code)
    (hlong : ¬(w.wrap = .instruction ∧ code.length ≤ w.size)) :
    (w.joined address).buffer.length < w.size := by
  unfold Writer.joined
  split
  · simpa using h.positive
  · next hjoined =>
    cases hwrap : w.wrap with
    | byte => exact h.byte hwrap
    | instruction =>
      have hlength : w.size < code.length := Nat.lt_of_not_le fun hle => hlong ⟨hwrap, hle⟩
      refine Nat.lt_of_le_of_ne h.buffer fun hfull => hnot ⟨hwrap, hfull, ?_, hlength⟩
      have hne : w.buffer ≠ [] := by
        intro hnil
        rw [hnil] at hfull
        exact absurd hfull (Nat.ne_of_lt h.positive)
      exact Decidable.byContradiction fun haddress => hjoined ⟨hne, haddress⟩

/-- **A write that does not overfill the buffer keeps the records sized.** -/
theorem Sized.added (h : w.Sized) (hspace : w.InSpace) (hfits : Fits address code)
    (hnot : ¬w.Overfills address code) : (w.added address code).Sized := by
  have hjoined := h.joined hspace address
  unfold Writer.added
  split
  · next hwhole =>
    exact hjoined.addWhole (hspace.joined address) (by simpa using hwhole.1)
      (by simpa using hwhole.2)
  · next hlong =>
    exact hjoined.addBytes (hspace.joined address) (hspace.continues_joined address) hfits
      (by simpa using h.room_joined hnot hlong)

/-! ## Writes that overfill the buffer -/

/-- A buffer that is full, or past it, takes all bytes that are added one by one. -/
theorem addBytes_of_full : ∀ (code : List UInt8) (w : Writer) (address : UInt32),
    w.size ≤ w.buffer.length →
      (w.addBytes address code).buffer = w.buffer ++ code ∧
        (w.addBytes address code).written = w.written
  | [], w, _, _ => by simp [Writer.addBytes]
  | b :: code, w, address, hfull => by
    have hbyte : w.addByte address b = w.append address [b] := by
      unfold Writer.addByte
      simp only
      rw [if_neg]
      rw [append_buffer, List.length_append, append_size]
      simp only [List.length_cons, List.length_nil]
      omega
    rw [Writer.addBytes, hbyte]
    obtain ⟨hbuffer, hwritten⟩ := addBytes_of_full code (w.append address [b]) (address + 1)
      (by simp [append_buffer]; omega)
    exact ⟨by rw [hbuffer, append_buffer, List.append_assoc]; rfl, hwritten⟩

theorem spoiled_of_overfills (hpositive : 0 < w.size) (h : w.Overfills address code) :
    (w.added address code).Spoiled := by
  obtain ⟨hwrap, hfull, haddress, hlong⟩ := h
  have hjoined : w.joined address = w := by
    unfold joined
    rw [if_neg fun hgap => hgap.2 haddress]
  have hadded : w.added address code = w.addBytes address code := by
    unfold added
    rw [if_neg fun hshort => absurd hshort.2 (Nat.not_le_of_lt hlong), hjoined]
  refine Or.inr ?_
  rw [added_size, hadded, (addBytes_of_full code w address (Nat.le_of_eq hfull.symm)).1,
    List.length_append]
  omega

/-! ## No record is taken back -/

theorem written_subset_flushed (w : Writer) : w.written ⊆ w.flushed.written := by
  by_cases hne : w.buffer = []
  · rw [flushed_of_nil hne]
    exact fun _ hr => hr
  · by_cases hfits : (Record.mk w.address .data w.buffer).fits = true <;>
      simp [Writer.flushed, flush, hne, emit, hfits]

theorem written_subset_addBytes : ∀ (code : List UInt8) (w : Writer) (address : UInt32),
    w.written ⊆ (w.addBytes address code).written
  | [], _, _ => fun _ hr => hr
  | b :: code, w, address => by
    have hbyte : w.written ⊆ (w.addByte address b).written := by
      unfold Writer.addByte
      simp only
      split
      · exact written_subset_flushed (w.append address [b])
      · exact fun _ hr => hr
    exact fun r hr => written_subset_addBytes code _ _ (hbyte hr)

/-- A spoiled writer has a record that is too long once its buffer is written. -/
theorem Spoiled.flushed (h : w.Spoiled) (hspace : w.InSpace) :
    ∃ r ∈ w.flushed.written, r.kind = .data ∧ w.size < r.data.length := by
  rcases h with ⟨r, hr, hlong⟩ | hlong
  · exact ⟨r, written_subset_flushed w hr, hlong⟩
  · have hne : w.buffer ≠ [] := fun hnil => by simp [hnil] at hlong
    rw [flushed_of_ne_nil hspace hne]
    exact ⟨_, List.mem_cons_self, rfl, hlong⟩

theorem Spoiled.joined (h : w.Spoiled) (hspace : w.InSpace) (address : UInt32) :
    (w.joined address).Spoiled := by
  unfold Writer.joined
  split
  · exact Or.inl (by simpa using h.flushed hspace)
  · exact h

theorem Spoiled.append (h : w.Spoiled) (address : UInt32) (code : List UInt8) :
    (w.append address code).Spoiled := by
  rcases h with hrecord | hlong
  · exact Or.inl hrecord
  · refine Or.inr ?_
    rw [append_size, append_buffer, List.length_append]
    omega

theorem Spoiled.addBytes (h : w.Spoiled) (address : UInt32) (code : List UInt8) :
    (w.addBytes address code).Spoiled := by
  rcases h with ⟨r, hr, hlong⟩ | hlong
  · exact Or.inl ⟨r, written_subset_addBytes code w address hr, by simpa using hlong⟩
  · refine Or.inr ?_
    rw [(addBytes_of_full code w address (Nat.le_of_lt hlong)).1, addBytes_size,
      List.length_append]
    omega

/-- **What is spoiled stays spoiled.** -/
theorem Spoiled.added (h : w.Spoiled) (hspace : w.InSpace) (address : UInt32)
    (code : List UInt8) : (w.added address code).Spoiled := by
  have hjoined := h.joined hspace address
  unfold Writer.added
  split
  · unfold Writer.addWhole
    split
    · refine Spoiled.append (Or.inl ?_) address code
      simpa using hjoined.flushed (hspace.joined address)
    · exact hjoined.append address code
  · exact hjoined.addBytes address code

/-! ## Runs of a writer -/

theorem spoiled_addedAll : ∀ {pieces : List (UInt32 × List UInt8)} {w : Writer}, w.Spoiled →
    w.InSpace → (∀ piece ∈ pieces, Fits piece.1 piece.2) → (w.addedAll pieces).Spoiled
  | [], _, h, _, _ => h
  | (address, code) :: pieces, w, h, hspace, hfits => by
    obtain ⟨_, hnext⟩ := write_eq hspace (hfits _ List.mem_cons_self)
    rw [addedAll_cons]
    exact spoiled_addedAll (h.added hspace address code) hnext
      fun piece hp => hfits piece (List.mem_cons_of_mem _ hp)

/-- Writes keep the records sized up to the first that overfills the buffer, and from then on they
are spoiled. -/
theorem addedAll_sized : ∀ {pieces : List (UInt32 × List UInt8)} {w : Writer}, w.Sized →
    w.InSpace → (∀ piece ∈ pieces, Fits piece.1 piece.2) →
      (¬w.Overfilled pieces → (w.addedAll pieces).Sized) ∧
        (w.Overfilled pieces → (w.addedAll pieces).Spoiled)
  | [], _, h, _, _ => ⟨fun _ => h, fun hover => hover.elim⟩
  | (address, code) :: pieces, w, h, hspace, hfits => by
    have hfirst : Fits address code := hfits _ List.mem_cons_self
    have hrest : ∀ piece ∈ pieces, Fits piece.1 piece.2 :=
      fun piece hp => hfits piece (List.mem_cons_of_mem _ hp)
    obtain ⟨hwrite, hnext⟩ := write_eq hspace hfirst
    rw [addedAll_cons]
    by_cases hover : w.Overfills address code
    · refine ⟨fun hnot => absurd (Or.inl hover) hnot, fun _ => ?_⟩
      exact spoiled_addedAll (spoiled_of_overfills h.positive hover) hnext hrest
    · obtain ⟨hsized, hspoiled⟩ :=
        addedAll_sized (h.added hspace hfirst hover) hnext hrest
      constructor
      · intro hnot
        refine hsized fun hlater => hnot (Or.inr ?_)
        rw [hwrite]
        exact hlater
      · rintro (hnow | hlater)
        · exact absurd hnow hover
        · rw [hwrite] at hlater
          exact hspoiled hlater

/-- A new writer has its size, and nothing else. -/
theorem new_eq {size : Int} {wrap : Wrap} (h : Writer.new size wrap = .ok w) :
    1 ≤ size ∧ size ≤ 255 ∧ w = { size := size.toNat, wrap } := by
  unfold Writer.new at h
  split at h
  · next hbounds =>
    cases h
    exact ⟨hbounds.1, hbounds.2, rfl⟩
  · cases h

theorem sized_new {size : Int} {wrap : Wrap} (h : Writer.new size wrap = .ok w) : w.Sized := by
  obtain ⟨hleast, _, rfl⟩ := new_eq h
  have hpositive : 0 < size.toNat := by omega
  exact ⟨hpositive, by simp, Nat.zero_le _, fun _ => hpositive⟩

/-- **The data records of a file are sized if and only if no write continues a full buffer with more
bytes than a record holds.** No call fails, whatever the writes, if their bytes lie in the address
space. -/
theorem records_sized_iff (size : Int) (wrap : Wrap) (w : Writer)
    (hnew : Writer.new size wrap = .ok w) (pieces : List (UInt32 × List UInt8))
    (hfits : ∀ piece ∈ pieces, Fits piece.1 piece.2) :
    ∃ final, andThen (w.writeAll pieces) close = (final, none) ∧
      ((∀ r ∈ final.records, r.kind = .data → r.Sized size.toNat) ↔ ¬w.Overfilled pieces) := by
  have hsized := sized_new hnew
  obtain ⟨_, hmost, hw⟩ := new_eq hnew
  have hspace : w.InSpace := inSpace_of_buffer_eq_nil (by rw [hw])
  obtain ⟨hall, hend⟩ := writeAll_eq hspace hfits
  obtain ⟨hkept, hspoiled⟩ := addedAll_sized hsized hspace hfits
  have hsize : (w.addedAll pieces).size = size.toNat := by
    rw [addedAll_size, hw]
  refine ⟨_, by rw [hall]; exact close_eq hend, ?_, ?_⟩
  · intro hrecords hover
    obtain ⟨r, hr, hdata, hlong⟩ := (hspoiled hover).flushed hend
    have hle := (hrecords r (List.mem_reverse.mpr (List.mem_cons_of_mem _ hr)) hdata).2.1
    omega
  · intro hnot r hr hdata
    rcases List.mem_cons.mp (List.mem_reverse.mp hr) with rfl | hr
    · cases hdata
    · have hbounds := ((hkept hnot).flushed hend).records r hr hdata
      rw [flushed_size, hsize] at hbounds
      exact Record.sized_of_le (by omega) hbounds

/-- Writes that fill a record and then leave a gap before a long one are sized. -/
theorem records_sized_iff_gap : ∃ w final, Writer.new 2 .instruction = .ok w ∧
    andThen (w.writeAll [(0, [1, 2]), (3, [3, 4, 5])]) close = (final, none) ∧
      ∀ r ∈ final.records, r.kind = .data → r.Sized 2 := by
  obtain ⟨final, hfinal, hiff⟩ := records_sized_iff 2 .instruction ⟨2, .instruction, [], 0, []⟩ rfl
    [(0, [1, 2]), (3, [3, 4, 5])] (by simp [Fits])
  exact ⟨_, final, rfl, hfinal, hiff.mpr (by decide)⟩

/-- Writes that fill a record and go on with a long one give a record of five bytes in place of
two. -/
theorem oversized_record : ∃ w final, Writer.new 2 .instruction = .ok w ∧
    andThen (w.writeAll [(0, [1, 2]), (2, [3, 4, 5])]) close = (final, none) ∧
      ∃ r ∈ final.records, r.kind = .data ∧ 2 < r.data.length :=
  ⟨_, _, rfl, rfl, ⟨0, .data, [1, 2, 3, 4, 5]⟩, by decide, by decide, by decide⟩

end Writer
end Mcs51.Hex
