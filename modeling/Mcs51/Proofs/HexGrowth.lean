import Mcs51.Proofs.HexRecordSize

/-!
# What a HEX writer has when no call failed

Wherever its bytes lie, a writer counts addresses in words of 32 bits, and looks at them only when a
record is written. `Grows` says all that calls without a failure can do to a writer: the bytes they
are given come after those it had, each at its address (`placed`), the records it had stay, the new
ones fit, and what was in the buffer is still together, in the buffer or in one record.

* `grows_flush`, `grows_append`: the two moves of a writer. All other steps are made of them.
* `grows_write`, `grows_writeAll`: a write, and any number of writes.
* `closed_of_close`: closing writes what is left, and the end of the file.
* `writeAll_whole`: a write that fits a record is not split, whatever comes before and after it.
-/

namespace Mcs51.Hex

/-! ## Bytes and their words -/

/-- Bytes with their addresses, which count on from the given one in words of 32 bits. -/
def place : UInt32 → List UInt8 → List (UInt32 × UInt8)
  | _, [] => []
  | address, b :: bytes => (address, b) :: place (address + 1) bytes

theorem toUInt32_succ (n : Nat) : (n + 1).toUInt32 = n.toUInt32 + 1 := by
  rw [Nat.toUInt32_eq, Nat.toUInt32_eq, UInt32.ofNat_add]
  rfl

theorem add_toUInt32_succ (address : UInt32) (n : Nat) :
    address + (n + 1).toUInt32 = address + 1 + n.toUInt32 := by
  rw [toUInt32_succ, UInt32.add_comm n.toUInt32, UInt32.add_assoc]

theorem place_append : ∀ (bytes more : List UInt8) (address : UInt32),
    place address (bytes ++ more)
      = place address bytes ++ place (address + bytes.length.toUInt32) more
  | [], more, address => by
    have hzero : address + ([] : List UInt8).length.toUInt32 = address := UInt32.add_zero address
    rw [hzero]
    rfl
  | b :: bytes, more, address => by
    rw [List.cons_append, place, place, place_append bytes more, List.length_cons,
      add_toUInt32_succ, List.cons_append]

/-- The bytes that were placed. -/
@[simp] theorem map_snd_place : ∀ (bytes : List UInt8) (address : UInt32),
    (place address bytes).map Prod.snd = bytes
  | [], _ => rfl
  | b :: bytes, address => by rw [place, List.map_cons, map_snd_place bytes]

/-- The bytes of a record with their addresses. -/
def Record.placed (r : Record) : List (UInt32 × UInt8) := place r.address r.data

namespace Writer

variable {w next last : Writer} {address : UInt32} {code : List UInt8}
  {bytes more : List (UInt32 × UInt8)}

/-- The bytes that a writer was given, with their addresses in words. -/
def placed (w : Writer) : List (UInt32 × UInt8) :=
  w.records.flatMap Record.placed ++ place w.address w.buffer

/-! ## Growth -/

/-- The bytes at the address start a record that comes after the given ones: one that is written, or
the one that the buffer will be. -/
def Starts (w : Writer) (before : List Record) (address : UInt32) (code : List UInt8) : Prop :=
  (w.records = before ∧ w.address = address ∧ code <+: w.buffer) ∨
    ∃ r after, w.records = before ++ r :: after ∧ r.kind = .data ∧ r.address = address ∧
      code <+: r.data

/-- The writer was given the bytes, and no step failed. -/
structure Grows (w : Writer) (bytes : List (UInt32 × UInt8)) (next : Writer) : Prop where
  size : next.size = w.size
  wrap : next.wrap = w.wrap
  placed : next.placed = w.placed ++ bytes
  records : ∃ after, next.records = w.records ++ after ∧ ∀ r ∈ after, r.fits = true
  together : w.buffer ≠ [] → next.Starts w.records w.address w.buffer

theorem Grows.refl (w : Writer) : w.Grows [] w where
  size := rfl
  wrap := rfl
  placed := (List.append_nil _).symm
  records := ⟨[], (List.append_nil _).symm, by simp⟩
  together _ := Or.inl ⟨rfl, rfl, List.prefix_rfl⟩

/-- What starts a record still does so after further steps. -/
theorem Starts.grows {before : List Record} (h : w.Starts before address code) (hne : code ≠ [])
    (hgrows : w.Grows bytes next) : next.Starts before address code := by
  rcases h with ⟨rfl, rfl, hprefix⟩ | ⟨r, after, hrecords, hkind, haddress, hprefix⟩
  · have hbuffer : w.buffer ≠ [] := fun hnil => hne (List.prefix_nil.mp (hnil ▸ hprefix))
    rcases hgrows.together hbuffer with
      ⟨hsame, hstart, hmore⟩ | ⟨r, after, hnew, hkind, hstart, hmore⟩
    · exact Or.inl ⟨hsame, hstart, hprefix.trans hmore⟩
    · exact Or.inr ⟨r, after, hnew, hkind, hstart, hprefix.trans hmore⟩
  · obtain ⟨later, hnew, _⟩ := hgrows.records
    refine Or.inr ⟨r, after ++ later, ?_, hkind, haddress, hprefix⟩
    rw [hnew, hrecords, List.append_assoc, List.cons_append]

theorem Grows.trans (hfirst : w.Grows bytes next) (hthen : next.Grows more last) :
    w.Grows (bytes ++ more) last where
  size := hthen.size.trans hfirst.size
  wrap := hthen.wrap.trans hfirst.wrap
  placed := by rw [hthen.placed, hfirst.placed, List.append_assoc]
  records := by
    obtain ⟨after, hafter, hfits⟩ := hfirst.records
    obtain ⟨later, hlater, hfits'⟩ := hthen.records
    refine ⟨after ++ later, by rw [hlater, hafter, List.append_assoc], fun r hr => ?_⟩
    exact (List.mem_append.mp hr).elim (hfits r) (hfits' r)
  together hne := (hfirst.together hne).grows hne hthen

/-! ## The two moves -/

/-- The address is the next word after the buffer, if the buffer holds bytes. -/
def Meets (w : Writer) (address : UInt32) : Prop :=
  w.buffer ≠ [] → address = w.address + w.buffer.length.toUInt32

theorem meets_of_buffer_eq_nil (h : w.buffer = []) (address : UInt32) : w.Meets address :=
  fun hne => absurd h hne

/-- **A flush that succeeds turns the buffer into a record.** -/
theorem grows_flush (h : w.flush = (next, none)) : w.Grows [] next ∧ next.buffer = [] := by
  by_cases hempty : w.buffer = []
  · have hsame : w.flush = (w, none) := by simp [flush, hempty]
    obtain rfl : w = next := congrArg Prod.fst (hsame.symm.trans h)
    exact ⟨.refl w, hempty⟩
  · by_cases hfits : (Record.mk w.address .data w.buffer).fits = true
    · have hflush : w.flush = ({ w with
          written := ⟨w.address, .data, w.buffer⟩ :: w.written
          address := w.address + w.buffer.length.toUInt32
          buffer := [] }, none) := by
        simp [flush, hempty, emit, hfits]
      obtain rfl := congrArg Prod.fst (hflush.symm.trans h)
      refine ⟨⟨rfl, rfl, ?_, ?_, fun _ => Or.inr ?_⟩, rfl⟩
      · simp [placed, records, Record.placed, place]
      · exact ⟨[⟨w.address, .data, w.buffer⟩], by simp [records], by simpa using hfits⟩
      · exact ⟨⟨w.address, .data, w.buffer⟩, [], by simp [records], rfl, rfl, List.prefix_rfl⟩
    · have hfail : w.flush.2 = some (.addressRange w.address) := by
        simp [flush, hempty, emit, hfits]
      rw [h] at hfail
      cases hfail

/-- **Bytes that meet the buffer are added at its end.** -/
theorem grows_append (hmeets : w.Meets address) (code : List UInt8) :
    w.Grows (place address code) (w.append address code) := by
  refine ⟨rfl, rfl, ?_, ⟨[], (List.append_nil _).symm, by simp⟩, fun hne => Or.inl ⟨rfl, ?_, ?_⟩⟩
  · by_cases hempty : w.buffer = []
    · simp [placed, records, append, hempty, place]
    · simp [placed, records, append, hempty, place_append, ← hmeets hempty]
  · simp [append, hne]
  · exact List.prefix_append _ _

/-- After one more byte the next word is met. -/
theorem Meets.append (hmeets : w.Meets address) (b : UInt8) :
    (w.append address [b]).Meets (address + 1) := by
  intro _
  by_cases hempty : w.buffer = []
  · simp only [Writer.append, hempty, List.isEmpty_nil, if_true]
    rfl
  · have hkeep : (w.append address [b]).address = w.address := by simp [Writer.append, hempty]
    rw [hkeep, append_buffer, List.length_append, List.length_singleton, toUInt32_succ,
      ← UInt32.add_assoc, ← hmeets hempty]

/-! ## Steps and runs -/

/-- A step after another succeeds if both do. -/
theorem andThen_eq_none {step : Writer × Option WriteError}
    {rest : Writer → Writer × Option WriteError} :
    andThen step rest = (last, none) ↔ ∃ next, step = (next, none) ∧ rest next = (last, none) := by
  obtain ⟨next, _ | e⟩ := step <;> simp [andThen]

/-- A step that is a flush or nothing. -/
theorem grows_flush_if {p : Prop} [Decidable p]
    (h : (if p then w.flush else (w, none)) = (next, none)) :
    w.Grows [] next ∧ (p → next.buffer = []) ∧ (¬p → next = w) := by
  split at h
  · next hp => exact ⟨(grows_flush h).1, fun _ => (grows_flush h).2, fun hnot => absurd hp hnot⟩
  · next hnot =>
    cases h
    exact ⟨.refl w, fun hp => absurd hp hnot, fun _ => rfl⟩

theorem grows_writeBytes : ∀ {code : List UInt8} {w : Writer} {address : UInt32},
    w.Meets address → w.writeBytes address code = (next, none) →
      w.Grows (place address code) next
  | [], _, _, _, h => by
    cases h
    exact .refl _
  | b :: code, w, address, hmeets, h => by
    obtain ⟨middle, hstep, hrest⟩ := andThen_eq_none.mp h
    obtain ⟨hgrows, hfull, hmore⟩ := grows_flush_if hstep
    have hnext : middle.Meets (address + 1) := by
      by_cases hsize : (w.append address [b]).buffer.length = (w.append address [b]).size
      · exact meets_of_buffer_eq_nil (hfull hsize) _
      · rw [hmore hsize]
        exact hmeets.append b
    exact ((grows_append hmeets [b]).trans hgrows).trans (grows_writeBytes hnext hrest)

/-- Bytes that are added together are at the end of the buffer. -/
theorem grows_writeWhole (hmeets : w.Meets address)
    (h : w.writeWhole address code = (next, none)) :
    w.Grows (place address code) next ∧
      ∃ middle : Writer, w.Grows [] middle ∧ middle.Meets address ∧
        next = middle.append address code := by
  obtain ⟨middle, hstep, hrest⟩ := andThen_eq_none.mp h
  obtain ⟨hgrows, hfull, hroom⟩ := grows_flush_if hstep
  have hnext : middle.Meets address := by
    by_cases hsize : w.size < w.buffer.length + code.length
    · exact meets_of_buffer_eq_nil (hfull hsize) _
    · rw [hroom hsize]
      exact hmeets
  cases hrest
  exact ⟨hgrows.trans (grows_append hnext code), middle, hgrows, hnext, rfl⟩

/-- A write joins the buffer, and then adds its bytes together or one by one. -/
theorem write_eq_none (h : w.write address code = (next, none)) :
    ∃ middle : Writer, w.Grows [] middle ∧ middle.Meets address ∧
      (if w.wrap = .instruction ∧ code.length ≤ w.size then middle.writeWhole address code
        else middle.writeBytes address code) = (next, none) := by
  obtain ⟨middle, hstep, hrest⟩ := andThen_eq_none.mp h
  obtain ⟨hgrows, hgap, hjoin⟩ := grows_flush_if hstep
  rw [hgrows.wrap, hgrows.size] at hrest
  refine ⟨middle, hgrows, ?_, hrest⟩
  by_cases happart : w.buffer ≠ [] ∧ address ≠ w.address + w.buffer.length.toUInt32
  · exact meets_of_buffer_eq_nil (hgap happart) _
  · rw [hjoin happart]
    exact fun hne => Decidable.byContradiction fun haddress => happart ⟨hne, haddress⟩

/-- **A write that succeeds adds its bytes at the end of what the writer has.** -/
theorem grows_write (h : w.write address code = (next, none)) :
    w.Grows (place address code) next := by
  obtain ⟨middle, hgrows, hmeets, hrest⟩ := write_eq_none h
  split at hrest
  · exact hgrows.trans (grows_writeWhole hmeets hrest).1
  · exact hgrows.trans (grows_writeBytes hmeets hrest)

/-- The bytes of writes with their addresses. -/
def placeAll (pieces : List (UInt32 × List UInt8)) : List (UInt32 × UInt8) :=
  pieces.flatMap fun piece => place piece.1 piece.2

theorem map_snd_placeAll (pieces : List (UInt32 × List UInt8)) :
    (placeAll pieces).map Prod.snd = pieces.flatMap Prod.snd := by
  simp [placeAll, List.map_flatMap]

/-- **Writes that succeed add their bytes in order.** -/
theorem grows_writeAll : ∀ {pieces : List (UInt32 × List UInt8)} {w : Writer},
    w.writeAll pieces = (next, none) → w.Grows (placeAll pieces) next
  | [], _, h => by
    cases h
    exact .refl _
  | (address, code) :: pieces, w, h => by
    obtain ⟨middle, hfirst, hrest⟩ := andThen_eq_none.mp h
    exact (grows_write hfirst).trans (grows_writeAll hrest)

theorem writeAll_append_eq_none : ∀ {before after : List (UInt32 × List UInt8)} {w : Writer},
    w.writeAll (before ++ after) = (last, none) →
      ∃ middle, w.writeAll before = (middle, none) ∧ middle.writeAll after = (last, none)
  | [], _, w, h => ⟨w, rfl, h⟩
  | (address, code) :: before, after, w, h => by
    obtain ⟨first, hfirst, hrest⟩ := andThen_eq_none.mp h
    obtain ⟨middle, hbefore, hafter⟩ := writeAll_append_eq_none hrest
    exact ⟨middle, andThen_eq_none.mpr ⟨first, hfirst, hbefore⟩, hafter⟩

/-- The record at the end of a file. -/
def endRecord : Record := ⟨0, .endOfFile, []⟩

/-- **Closing writes what is left as a record, and the end of the file.** -/
theorem closed_of_close (h : w.close = (last, none)) :
    ∃ next : Writer, w.Grows [] next ∧ next.buffer = [] ∧
      last.records = next.records ++ [endRecord] := by
  obtain ⟨next, hflush, hend⟩ := andThen_eq_none.mp h
  obtain ⟨hgrows, hempty⟩ := grows_flush hflush
  cases hend
  exact ⟨next, hgrows, hempty, by simp [records, endRecord]⟩

/-! ## Whole writes -/

/-- A record that starts with bytes of the buffer is written when the buffer is empty. -/
theorem Starts.written {before : List Record} (h : w.Starts before address code) (hne : code ≠ [])
    (hempty : w.buffer = []) : ∃ r after, w.records = before ++ r :: after ∧ r.kind = .data ∧
      r.address = address ∧ code <+: r.data := by
  rcases h with ⟨_, _, hprefix⟩ | hwritten
  · rw [hempty] at hprefix
    exact absurd (List.prefix_nil.mp hprefix) hne
  · exact hwritten

/-- The bytes that a writer was given. -/
def data (w : Writer) : List UInt8 := w.records.flatMap Record.data ++ w.buffer

theorem map_snd_placed (w : Writer) : w.placed.map Prod.snd = w.data := by
  simp [placed, data, Record.placed, List.map_flatMap]

theorem Grows.data (h : w.Grows bytes next) : next.data = w.data ++ bytes.map Prod.snd := by
  rw [← map_snd_placed, ← map_snd_placed, h.placed, List.map_append]

/-- A write that fits a record is at the end of the buffer, after bytes that it meets. -/
theorem buffer_of_write (hwrap : w.wrap = .instruction) (hlength : code.length ≤ w.size)
    (h : w.write address code = (next, none)) :
    ∃ front, next.buffer = front ++ code ∧ next.address + front.length.toUInt32 = address := by
  obtain ⟨middle, _, hmeets, hrest⟩ := write_eq_none h
  rw [if_pos ⟨hwrap, hlength⟩] at hrest
  obtain ⟨_, whole, _, hmeets, rfl⟩ := grows_writeWhole hmeets hrest
  refine ⟨whole.buffer, rfl, ?_⟩
  by_cases hempty : whole.buffer = []
  · simp only [append, hempty, List.isEmpty_nil, if_true]
    exact UInt32.add_zero address
  · have hkeep : (whole.append address code).address = whole.address := by
      simp [append, hempty]
    rw [hkeep, ← hmeets hempty]

/-- Once the buffer is empty, a write that fitted a record is in one, between the bytes that the
writer had before and those that it was given since. -/
theorem whole_of_write (hwrap : w.wrap = .instruction) (hlength : code.length ≤ w.size)
    (hne : code ≠ []) (hwrite : w.write address code = (next, none))
    (hgrows : next.Grows bytes last) (hempty : last.buffer = []) :
    ∃ r more front back, last.records = next.records ++ r :: more ∧ r.kind = .data ∧
      r.data = front ++ code ++ back ∧ r.address + front.length.toUInt32 = address ∧
      next.records.flatMap Record.data ++ front = w.data ∧
      back ++ more.flatMap Record.data = bytes.map Prod.snd := by
  obtain ⟨front, hbuffer, haddress⟩ := buffer_of_write hwrap hlength hwrite
  have hfilled : next.buffer ≠ [] := by
    rw [hbuffer]
    exact List.append_ne_nil_of_right_ne_nil _ hne
  obtain ⟨r, more, hrecords, hkind, hstart, back, hback⟩ :=
    (hgrows.together hfilled).written hfilled hempty
  refine ⟨r, more, front, back, hrecords, hkind, ?_, ?_, ?_, ?_⟩
  · rw [← hback, hbuffer]
  · rw [hstart, haddress]
  · have hdata := (grows_write hwrite).data
    rwa [map_snd_place, data, hbuffer, ← List.append_assoc, List.append_left_inj] at hdata
  · have hdata := hgrows.data
    rwa [data, data, hempty, List.append_nil, hrecords, List.flatMap_append, List.flatMap_cons,
      ← hback, List.append_assoc, List.append_assoc, List.append_right_inj,
      List.append_right_inj] at hdata

/-- **A write that fits a record is not split.** Whatever is written before and after it, its bytes
follow one another in one data record, at their address. They are its own bytes: what stands before
them in the file is what was written before, and what stands after them was written after. -/
theorem writeAll_whole (size : Int) (w final : Writer)
    (hnew : Writer.new size .instruction = .ok w) (before after : List (UInt32 × List UInt8))
    (address : UInt32) (code : List UInt8)
    (hdone : andThen (w.writeAll (before ++ (address, code) :: after)) close = (final, none))
    (hne : code ≠ []) (hlength : (code.length : Int) ≤ size) :
    ∃ records r more front back, final.records = records ++ r :: more ∧ r.kind = .data ∧
      r.data = front ++ code ++ back ∧ r.address + front.length.toUInt32 = address ∧
      records.flatMap Record.data ++ front = before.flatMap Prod.snd ∧
      back ++ more.flatMap Record.data = after.flatMap Prod.snd := by
  obtain ⟨last, hall, hclose⟩ := andThen_eq_none.mp hdone
  obtain ⟨start, hbefore, hrest⟩ := writeAll_append_eq_none hall
  obtain ⟨next, hwrite, hafter⟩ := andThen_eq_none.mp hrest
  obtain ⟨closed, hflush, hempty, hfinal⟩ := closed_of_close hclose
  have hstart : w.Grows (placeAll before) start := grows_writeAll hbefore
  have hend : next.Grows (placeAll after ++ []) closed := (grows_writeAll hafter).trans hflush
  obtain ⟨_, _, rfl⟩ := new_eq hnew
  have hfits : code.length ≤ start.size := by
    rw [hstart.size]
    show code.length ≤ size.toNat
    omega
  obtain ⟨r, more, front, back, hrecords, hkind, hdata, haddress, hfront, hback⟩ :=
    whole_of_write hstart.wrap hfits hne hwrite hend hempty
  have hgiven : start.data = before.flatMap Prod.snd := by
    rw [hstart.data, map_snd_placeAll]
    rfl
  rw [List.append_nil, map_snd_placeAll] at hback
  refine ⟨next.records, r, more ++ [endRecord], front, back, ?_, hkind, hdata, haddress,
    hfront.trans hgiven, ?_⟩
  · rw [hfinal, hrecords, List.append_assoc, List.cons_append]
  · rw [List.flatMap_append, ← List.append_assoc, hback]
    exact List.append_nil _

/-- A short write between one that leaves no room for it and one that overfills its record. -/
theorem writeAll_whole_overfilled : ∃ w final, Writer.new 2 .instruction = .ok w ∧
    andThen (w.writeAll [(0, [1]), (1, [2, 3]), (3, [4, 5, 6])]) close = (final, none) ∧
      ∃ records r more front back, final.records = records ++ r :: more ∧ r.kind = .data ∧
        r.data = front ++ [2, 3] ++ back ∧ r.address + front.length.toUInt32 = 1 ∧
        records.flatMap Record.data ++ front = [1] ∧
        back ++ more.flatMap Record.data = [4, 5, 6] :=
  ⟨_, _, rfl, rfl, writeAll_whole 2 ⟨2, .instruction, [], 0, []⟩ _ rfl [(0, [1])]
    [(3, [4, 5, 6])] 1 [2, 3] rfl (by decide) (by decide)⟩

end Writer
end Mcs51.Hex
