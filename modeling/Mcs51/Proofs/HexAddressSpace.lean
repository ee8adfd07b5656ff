import Mcs51.Proofs.HexGrowth
import Mcs51.Proofs.HexReader

/-!
# The address space of a HEX file

A record has to end at `0x10000` at most, but its end is counted in words of 32 bits. A record that
holds a byte at the last word `0xffffffff` ends past it, so its end counts from zero again, and the
record is taken for one that fits (`wrapped_record`). No other record outside the address space is.

* `end_le_of_fits`: a record that fits lies in the address space if it misses the last word
* `failsByRange_writeAll`: nothing but a record outside the address space makes a call fail
* `inSpace_iff`: all bytes lie in the address space if and only if no call fails and no byte is at
  the last word
-/

namespace Mcs51.Hex

/-- The last word that is an address. -/
def lastWord : UInt32 := 0xffffffff

/-- Bytes that miss the last word end before it, or at it. -/
theorem end_lt_of_ne_lastWord {address : UInt32} {n : Nat}
    (h : ∀ i < n, address.toNat + i ≠ lastWord.toNat) : address.toNat + n < 4294967296 := by
  have haddress := address.toNat_lt
  have hlast : lastWord.toNat = 4294967295 := rfl
  refine Nat.lt_of_not_le fun hle => ?_
  -- The byte at the last word is as many places after the first as there are words between them.
  have hbyte : address.toNat + (lastWord.toNat - address.toNat) = lastWord.toNat := by omega
  exact h _ (by omega) hbyte

/-- **A record that fits and misses the last word lies in the address space.** -/
theorem end_le_of_fits {r : Record} (hfits : r.fits = true)
    (hmiss : ∀ i < r.data.length, r.address.toNat + i ≠ lastWord.toNat) :
    r.address.toNat + r.data.length ≤ 0x10000 := by
  simp only [Record.fits, decide_eq_true_eq] at hfits
  rwa [toNat_add_toUInt32 (end_lt_of_ne_lastWord hmiss)] at hfits

/-! ## Addresses of placed bytes -/

/-- The addresses of placed bytes count on from the first. -/
theorem mem_map_fst_place {x : UInt32} : ∀ {bytes : List UInt8} {address : UInt32},
    x ∈ (place address bytes).map Prod.fst ↔
      ∃ i < bytes.length, x = address + i.toUInt32
  | [], address => by simp [place]
  | b :: bytes, address => by
    have hzero : address + (0 : Nat).toUInt32 = address := UInt32.add_zero address
    rw [place, List.map_cons, List.mem_cons, mem_map_fst_place]
    constructor
    · rintro (rfl | ⟨i, hi, rfl⟩)
      · exact ⟨0, Nat.zero_lt_succ _, hzero.symm⟩
      · exact ⟨i + 1, Nat.succ_lt_succ hi, (add_toUInt32_succ address i).symm⟩
    · rintro ⟨_ | i, hi, rfl⟩
      · exact Or.inl hzero
      · exact Or.inr ⟨i, Nat.lt_of_succ_lt_succ hi, add_toUInt32_succ address i⟩

/-- The last word is placed if it is counted to. -/
theorem lastWord_mem_place {address : UInt32} {bytes : List UInt8} {i : Nat}
    (hi : i < bytes.length) (h : address.toNat + i = lastWord.toNat) :
    lastWord ∈ (place address bytes).map Prod.fst := by
  refine mem_map_fst_place.mpr ⟨i, hi, UInt32.toNat_inj.mp ?_⟩
  have hlast : lastWord.toNat = 4294967295 := rfl
  rw [toNat_add_toUInt32 (by omega), h]

/-- The bytes of a record that fits and misses the last word are in the address space. -/
theorem Record.lt_of_mem_placed {r : Record} (hfits : r.fits = true)
    (hmiss : lastWord ∉ r.placed.map Prod.fst) {x : UInt32} (hx : x ∈ r.placed.map Prod.fst) :
    x.toNat < 0x10000 := by
  have hend := end_le_of_fits hfits fun i hi h => hmiss (lastWord_mem_place hi h)
  obtain ⟨i, hi, rfl⟩ := mem_map_fst_place.mp hx
  rw [toNat_add_toUInt32 (by omega)]
  omega

namespace Writer

variable {w : Writer} {pieces : List (UInt32 × List UInt8)}

/-! ## Failures -/

/-- The step fails at most because a record lies outside the address space. -/
def FailsByRange (step : Writer × Option WriteError) : Prop :=
  ∀ e, step.2 = some e → ∃ address, e = .addressRange address

theorem failsByRange_none (w : Writer) : FailsByRange (w, none) := by
  intro e he
  cases he

theorem FailsByRange.andThen {step : Writer × Option WriteError}
    {rest : Writer → Writer × Option WriteError} (hstep : FailsByRange step)
    (hrest : ∀ w, FailsByRange (rest w)) : FailsByRange (Writer.andThen step rest) := by
  obtain ⟨next, _ | e⟩ := step
  · exact hrest next
  · exact hstep

theorem failsByRange_emit (w : Writer) (r : Record) : FailsByRange (w.emit r) := by
  intro e he
  unfold emit at he
  split at he <;> cases he
  exact ⟨r.address, rfl⟩

theorem failsByRange_flush (w : Writer) : FailsByRange w.flush := by
  unfold flush
  split
  · exact failsByRange_none w
  · exact failsByRange_emit w _

theorem failsByRange_flush_if (w : Writer) (p : Prop) [Decidable p] :
    FailsByRange (if p then w.flush else (w, none)) := by
  split
  · exact failsByRange_flush w
  · exact failsByRange_none w

theorem failsByRange_writeBytes : ∀ (code : List UInt8) (w : Writer) (address : UInt32),
    FailsByRange (w.writeBytes address code)
  | [], w, _ => failsByRange_none w
  | _ :: code, _, address =>
    (failsByRange_flush_if _ _).andThen fun w => failsByRange_writeBytes code w (address + 1)

theorem failsByRange_write (w : Writer) (address : UInt32) (code : List UInt8) :
    FailsByRange (w.write address code) := by
  refine (failsByRange_flush_if _ _).andThen fun w => ?_
  split
  · exact (failsByRange_flush_if _ _).andThen fun w => failsByRange_none _
  · exact failsByRange_writeBytes code w address

/-- **Writes fail only if a record lies outside the address space.** -/
theorem failsByRange_writeAll : ∀ (pieces : List (UInt32 × List UInt8)) (w : Writer),
    FailsByRange (w.writeAll pieces)
  | [], w => failsByRange_none w
  | (address, code) :: pieces, w =>
    (failsByRange_write w address code).andThen fun w => failsByRange_writeAll pieces w

theorem failsByRange_close (w : Writer) : FailsByRange w.close :=
  (failsByRange_flush w).andThen fun w => failsByRange_emit w _

/-! ## The addresses of a file -/

/-- The records of a file that was written without a failure fit, and hold the bytes of all
writes. -/
theorem closed_of_new {size : Int} {wrap : Wrap} (hnew : Writer.new size wrap = .ok w)
    {final : Writer} (h : andThen (w.writeAll pieces) close = (final, none)) :
    ∃ records : List Record, records.flatMap Record.placed = placeAll pieces ∧
      ∀ r ∈ records, r.fits = true := by
  obtain ⟨last, hall, hclose⟩ := andThen_eq_none.mp h
  obtain ⟨closed, hflush, hempty, _⟩ := closed_of_close hclose
  obtain ⟨_, _, rfl⟩ := new_eq hnew
  have hgrows := (grows_writeAll hall).trans hflush
  obtain ⟨records, hrecords, hfits⟩ := hgrows.records
  refine ⟨records, ?_, hfits⟩
  have hplaced := hgrows.placed
  rw [placed, hempty, place, List.append_nil, hrecords, List.append_nil] at hplaced
  exact hplaced

/-- Bytes that miss the last word are in the address space if no call failed. -/
theorem lt_of_mem_placeAll {size : Int} {wrap : Wrap} (hnew : Writer.new size wrap = .ok w)
    {final : Writer} (h : andThen (w.writeAll pieces) close = (final, none))
    (hmiss : lastWord ∉ (placeAll pieces).map Prod.fst) {x : UInt32}
    (hx : x ∈ (placeAll pieces).map Prod.fst) : x.toNat < 0x10000 := by
  obtain ⟨records, hplaced, hfits⟩ := closed_of_new hnew h
  rw [← hplaced, List.map_flatMap] at hx hmiss
  obtain ⟨r, hr, hx⟩ := List.mem_flatMap.mp hx
  exact r.lt_of_mem_placed (hfits r hr) (fun hlast => hmiss (List.mem_flatMap.mpr ⟨r, hr, hlast⟩))
    hx

theorem mem_map_fst_placeAll {x : UInt32} : x ∈ (placeAll pieces).map Prod.fst ↔
    ∃ piece ∈ pieces, x ∈ (place piece.1 piece.2).map Prod.fst := by
  rw [placeAll, List.map_flatMap, List.mem_flatMap]

/-- Writes that miss the last word do not place a byte there. -/
theorem lastWord_not_mem_placeAll
    (h : ∀ piece ∈ pieces, ∀ i < piece.2.length, piece.1.toNat + i ≠ lastWord.toNat) :
    lastWord ∉ (placeAll pieces).map Prod.fst := by
  intro hlast
  obtain ⟨piece, hp, hlast⟩ := mem_map_fst_placeAll.mp hlast
  obtain ⟨i, hi, hword⟩ := mem_map_fst_place.mp hlast
  have hend := end_lt_of_ne_lastWord (h piece hp)
  refine h piece hp i hi ?_
  rw [hword, toNat_add_toUInt32 (by omega)]

/-- **All bytes lie in the address space if and only if no call fails and no byte is at the last
word of 32 bits.** A call that fails names a record that does not fit. -/
theorem inSpace_iff (size : Int) (wrap : Wrap) (w : Writer)
    (hnew : Writer.new size wrap = .ok w) (pieces : List (UInt32 × List UInt8)) :
    ((∀ piece ∈ pieces, ∀ i < piece.2.length, piece.1.toNat + i < 0x10000) ↔
      (∃ final, andThen (w.writeAll pieces) close = (final, none)) ∧
        ∀ piece ∈ pieces, ∀ i < piece.2.length, piece.1.toNat + i ≠ 0xffffffff) ∧
    ∀ final e, andThen (w.writeAll pieces) close = (final, some e) →
      ∃ address, e = .addressRange address := by
  refine ⟨⟨fun h => ⟨?_, ?_⟩, ?_⟩, ?_⟩
  · have hfits : ∀ piece ∈ pieces, Fits piece.1 piece.2 := by
      intro piece hp hne
      have hpositive := List.length_pos_iff.mpr hne
      have hlast := h piece hp (piece.2.length - 1) (by omega)
      omega
    have hspace : w.InSpace := inSpace_of_buffer_eq_nil (by rw [(new_eq hnew).2.2])
    obtain ⟨hall, hend⟩ := writeAll_eq hspace hfits
    exact ⟨_, by rw [hall]; exact close_eq hend⟩
  · intro piece hp i hi
    have hlt := h piece hp i hi
    omega
  · rintro ⟨⟨final, hdone⟩, hmiss⟩ piece hp i hi
    have hend := end_lt_of_ne_lastWord (hmiss piece hp)
    have hplaced : piece.1 + i.toUInt32 ∈ (placeAll pieces).map Prod.fst :=
      mem_map_fst_placeAll.mpr ⟨piece, hp, mem_map_fst_place.mpr ⟨i, hi, rfl⟩⟩
    have hlt := lt_of_mem_placeAll hnew hdone (lastWord_not_mem_placeAll hmiss) hplaced
    rwa [toNat_add_toUInt32 (by omega)] at hlt
  · intro final e hfail
    refine ((failsByRange_writeAll pieces w).andThen failsByRange_close) e ?_
    rw [hfail]

/-- Writes up to the last byte of the address space, in records that a later write goes on with. -/
theorem inSpace_iff_topOfMemory : ∃ w final, Writer.new 4 .byte = .ok w ∧
    andThen (w.writeAll [(0xfffa, [1, 2, 3]), (0xfffd, [4, 5, 6]), (0, [7])]) close
        = (final, none) ∧
      ∀ piece ∈ [(0xfffa, [1, 2, 3]), (0xfffd, [4, 5, 6]), ((0 : UInt32), [(7 : UInt8)])],
        ∀ i < piece.2.length, piece.1.toNat + i < 0x10000 := by
  have hiff := (inSpace_iff 4 .byte ⟨4, .byte, [], 0, []⟩ rfl
    [(0xfffa, [1, 2, 3]), (0xfffd, [4, 5, 6]), (0, [7])]).1
  exact ⟨_, _, rfl, rfl, hiff.mpr ⟨⟨_, rfl⟩, by decide⟩⟩

/-- A byte at the last word of 32 bits is accepted, and the file holds it at `0xffff`. -/
theorem wrapped_record : ∃ w final, Writer.new 16 .byte = .ok w ∧
    andThen (w.writeAll [(0xffffffff, [1])]) close = (final, none) ∧
      (¬ ∀ piece ∈ [((0xffffffff : UInt32), [(1 : UInt8)])], ∀ i < piece.2.length,
        piece.1.toNat + i < 0x10000) ∧
      readFile? final.text = some [(0xffff, 1)] :=
  ⟨_, _, rfl, rfl, by decide, rfl⟩

end Writer
end Mcs51.Hex
