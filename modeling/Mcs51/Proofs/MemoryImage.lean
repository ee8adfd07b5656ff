import Mcs51.Program.Emission
import Mcs51.Proofs.CodeSpace
import Mcs51.Proofs.HexRoundTrip

/-!
# The image is what the file loads

A program is written in two ways: as an image of code memory, and as a file of records. Both come
from the same units, but the image starts from a background and has a length, while the file leaves
out what holds no code. Loading the file over the background gives the image.

* `load` stores bytes in a memory; of two bytes at one address the later one stays.
* `Pictures.store`: storing code in an array is loading it into the memory that the array pictures.
* `Program.located_codes`: the bytes of a program in the image are those of its pieces in the file.
* `assemble_load_writeHex`: for a program without errors both ways describe the same memory.
-/

namespace Mcs51

/-! ## Loading -/

/-- Stores bytes in a memory, one after the other. -/
def load (memory : Nat → UInt8) : List (Nat × UInt8) → Nat → UInt8
  | [] => memory
  | (address, b) :: bytes => load (fun a => if a = address then b else memory a) bytes

theorem load_append : ∀ (memory : Nat → UInt8) (bytes later : List (Nat × UInt8)),
    load memory (bytes ++ later) = load (load memory bytes) later
  | _, [], _ => rfl
  | _, _ :: bytes, later => load_append _ bytes later

/-- Bytes that agree at an address give it their value. -/
theorem load_of_agree {a : Nat} {b : UInt8} : ∀ {bytes : List (Nat × UInt8)} {memory : Nat → UInt8},
    (∀ entry ∈ bytes, entry.1 = a → entry.2 = b) → memory a = b → load memory bytes a = b
  | [], _, _, h => h
  | (address, c) :: bytes, memory, hbytes, h => by
    obtain ⟨hfirst, hrest⟩ := List.forall_mem_cons.mp hbytes
    rw [load]
    refine load_of_agree hrest ?_
    by_cases heq : a = address
    · rw [if_pos heq]
      exact hfirst heq.symm
    · rw [if_neg heq, h]

/-- The array shows the first `n` bytes of a memory. -/
structure Pictures (array : Array UInt8) (n : Nat) (memory : Nat → UInt8) : Prop where
  size : array.size = n
  bytes : ∀ a < n, array[a]? = some (memory a)

/-- Bytes with addresses as numbers. -/
def located (codes : List (UInt32 × UInt8)) : List (Nat × UInt8) :=
  codes.map fun (address, b) => (address.toNat, b)

theorem Pictures.self (array : Array UInt8) : Pictures array array.size fun a => array.getD a 0 :=
  ⟨rfl, fun a ha => by simp [Array.getD, ha]⟩

theorem Pictures.set {array : Array UInt8} {n : Nat} {memory : Nat → UInt8}
    (h : Pictures array n memory) (address : Nat) (b : UInt8) :
    Pictures (array.setIfInBounds address b) n (fun a => if a = address then b else memory a) := by
  refine ⟨by rw [Array.size_setIfInBounds, h.size], fun a ha => ?_⟩
  rw [Array.getElem?_setIfInBounds]
  by_cases heq : address = a
  · rw [if_pos heq, if_pos (by rw [h.size]; omega), if_pos heq.symm]
  · rw [if_neg heq, if_neg (Ne.symm heq), h.bytes a ha]

/-- **Storing code in an array is loading it into the memory that the array shows.** -/
theorem Pictures.store : ∀ {codes : List (UInt32 × UInt8)} {array : Array UInt8} {n : Nat}
    {memory : Nat → UInt8}, Pictures array n memory →
      Pictures (Program.store array codes) n (load memory (located codes))
  | [], _, _, _, h => h
  | (address, b) :: _, _, _, _, h => (h.set address.toNat b).store

/-! ## Code -/

open Hex (locate Fits)

theorem located_bytesFrom : ∀ {code : Code} {address : UInt32}, Fits address code →
    located (CodeUnit.bytesFrom address code) = locate address.toNat code
  | [], _, _ => rfl
  | b :: code, address, h => by
    have hone : (address + 1).toNat = address.toNat + 1 :=
      Hex.toNat_add_length (h.head (by simp))
    have ih := located_bytesFrom h.tail
    rw [hone] at ih
    exact congrArg ((address.toNat, b) :: ·) ih

theorem located_append (codes codes' : List (UInt32 × UInt8)) :
    located (codes ++ codes') = located codes ++ located codes' := List.map_append

/-- **The bytes of a program are those of its pieces**: units without code add nothing. -/
theorem Program.located_codes (p : Program) (h : ∀ u ∈ p.units, Fits u.point u.code) :
    located p.codes = Hex.Writer.locateAll p.pieces := by
  unfold codes pieces
  generalize p.units = units at h
  induction units with
  | nil => rfl
  | cons u units ih =>
    have hunit : located u.codes = Hex.locate u.point.toNat u.code :=
      located_bytesFrom (h u List.mem_cons_self)
    have hrest := ih fun v hv => h v (List.mem_cons_of_mem u hv)
    rw [List.flatMap_cons, located_append, hunit, hrest]
    -- the file leaves out units without code, which add no bytes to the image either
    by_cases hempty : u.code = []
    · rw [hempty, List.filter_cons_of_neg (by simp [hempty])]
      rfl
    · rw [List.filter_cons_of_pos (by simpa using hempty)]
      rfl

theorem mem_locate_lt : ∀ {code : Code} {address : Nat} {entry : Nat × UInt8},
    entry ∈ locate address code → entry.1 < address + code.length
  | b :: code, address, entry, h => by
    rw [List.length_cons]
    rcases List.mem_cons.mp h with rfl | h
    · show address < _
      omega
    · have ih := mem_locate_lt h
      omega

/-! ## The background -/

namespace Program

/-- The address lies in a unit that reserves space. -/
def Reserved (p : Program) (a : Nat) : Prop :=
  ∃ u ∈ p.units, u.isReservation = true ∧ u.point.toNat ≤ a ∧ (a : Int) < u.point.toNat + u.size

instance (p : Program) (a : Nat) : Decidable (p.Reserved a) :=
  decidable_of_iff (p.units.any (fun u => u.isReservation && decide (u.point.toNat ≤ a) &&
    decide ((a : Int) < u.point.toNat + u.size)) = true) (by simp [Reserved, and_assoc])

/-- The memory before code is loaded: zero where space is reserved. -/
def blank (p : Program) (a : Nat) : UInt8 := if p.Reserved a then 0 else fillByte

variable {p : Program}

/-- A unit in code memory reserves the addresses from its own to its end; an empty one, wherever it
is, reserves none. -/
theorem reserves_iff {u : CodeUnit} (h : u.size ≠ 0 → u.InMemory) {a : Nat} (ha : a < codeSize) :
    u.reserves a.toUInt32 = true ↔
      u.isReservation = true ∧ u.point.toNat ≤ a ∧ (a : Int) < u.point.toNat + u.size := by
  have hsize : codeSize = 65536 := rfl
  have haddress : a.toUInt32.toNat = a := by
    rw [Nat.toUInt32_eq, UInt32.toNat_ofNat_of_lt' (Nat.lt_trans ha (by decide))]
  have hpoint := u.point.toNat_lt
  have hbounds : u.size = 0 ∨ 0 < u.size ∧ u.point.toNat + u.size ≤ codeSize := by
    by_cases hzero : u.size = 0
    · exact .inl hzero
    · have hleast := (h hzero).least
      exact .inr ⟨by omega, (h hzero).most⟩
  -- the check subtracts words: an address before the unit comes out past its end
  simp only [CodeUnit.reserves, Bool.and_eq_true, decide_eq_true_eq, UInt32.toNat_sub, haddress]
  constructor
  · rintro ⟨hreserves, hlt⟩
    exact ⟨hreserves, by omega, by omega⟩
  · rintro ⟨hreserves, hle, hlt⟩
    exact ⟨hreserves, by omega⟩

theorem background_eq (h : ∀ u ∈ p.units, u.size ≠ 0 → u.InMemory) {a : Nat} (ha : a < codeSize) :
    background { p with units := p.units.filter CodeUnit.isReservation } a.toUInt32
      = p.blank a := by
  have hiff : (p.units.filter CodeUnit.isReservation).any (·.reserves a.toUInt32) = true ↔
      p.Reserved a := by
    simp only [List.any_eq_true, List.mem_filter, Reserved]
    constructor
    · rintro ⟨u, ⟨hu, _⟩, hreserves⟩
      exact ⟨u, hu, (reserves_iff (h u hu) ha).mp hreserves⟩
    · rintro ⟨u, hu, hreserves⟩
      exact ⟨u, ⟨hu, hreserves.1⟩, (reserves_iff (h u hu) ha).mpr hreserves⟩
  rw [background, blank]
  simp only [hiff]

/-! ## The image -/

theorem le_max_word (m n : UInt32) : m ≤ max m n ∧ n ≤ max m n := by
  show m ≤ (if m ≤ n then n else m) ∧ n ≤ (if m ≤ n then n else m)
  split
  · next hle => exact ⟨hle, UInt32.le_refl n⟩
  · next hlt => exact ⟨UInt32.le_refl m, (UInt32.le_total m n).resolve_left hlt⟩

theorem le_foldl_max : ∀ (ends : List UInt32) (reach : UInt32),
    reach ≤ ends.foldl max reach ∧ ∀ e ∈ ends, e ≤ ends.foldl max reach
  | [], _ => ⟨UInt32.le_refl _, nofun⟩
  | e :: ends, reach => by
    obtain ⟨hmax, hall⟩ := le_foldl_max ends (max reach e)
    refine ⟨UInt32.le_trans (le_max_word reach e).1 hmax, fun e' he' => ?_⟩
    rcases List.mem_cons.mp he' with rfl | he'
    · exact UInt32.le_trans (le_max_word reach e').2 hmax
    · exact hall e' he'

/-- A unit in code memory ends in the image. -/
theorem le_extent {u : CodeUnit} (hu : u ∈ p.units) (h : u.InMemory) :
    u.point.toNat + u.size ≤ p.extent := by
  have hend := CodeUnit.toNat_endPoint h.least (Int.lt_of_le_of_lt h.most (by decide))
  have hle := UInt32.le_iff_toNat_le.mp
    ((le_foldl_max (p.units.map CodeUnit.endPoint) 0).2 _ (List.mem_map_of_mem hu))
  have hmost := h.most
  unfold extent
  omega

/-- **The image shows the background with the code of the program loaded**, if the units that are
not empty lie in code memory. -/
theorem pictures_image_of_sized (h : ∀ u ∈ p.units, u.size ≠ 0 → u.InMemory) :
    Pictures p.image.toArray p.extent (load p.blank (located p.codes)) := by
  have hextent : p.extent ≤ codeSize := Nat.min_le_right _ _
  refine Pictures.store ⟨by simp, fun a ha => ?_⟩
  rw [Array.getElem?_map, Array.getElem?_range, if_pos ha]
  exact congrArg some (background_eq h (Nat.lt_of_lt_of_le ha hextent))

theorem pictures_image (h : ∀ u ∈ p.units, u.InMemory) :
    Pictures p.image.toArray p.extent (load p.blank (located p.codes)) :=
  pictures_image_of_sized fun u hu _ => h u hu

theorem length_image (h : ∀ u ∈ p.units, u.InMemory) : p.image.length = p.extent :=
  (pictures_image h).size

/-! ## The file -/

/-- **A program in code memory is written without an error**, and its file reads as its code. -/
theorem readFile?_writeHex {size : Int} {wrap : Hex.Wrap} (hsize : 1 ≤ size ∧ size ≤ 255)
    (hwrap : wrap = .byte ∨ ∀ u ∈ p.units, (u.code.length : Int) ≤ size)
    (hfits : ∀ u ∈ p.units, Fits u.point u.code) :
    (p.writeHex size wrap).error? = none ∧
      Hex.readFile? (p.writeHex size wrap).text = some (located p.codes) := by
  have hpieces : ∀ piece ∈ p.pieces, ∃ u ∈ p.units, piece = (u.point, u.code) := by
    intro piece hpiece
    obtain ⟨u, hu, rfl⟩ := List.mem_map.mp hpiece
    exact ⟨u, (List.mem_filter.mp hu).1, rfl⟩
  have hwhole : wrap = .byte ∨ ∀ piece ∈ p.pieces, (piece.2.length : Int) ≤ size := by
    refine hwrap.imp id fun hshort piece hpiece => ?_
    obtain ⟨u, hu, rfl⟩ := hpieces piece hpiece
    exact hshort u hu
  obtain ⟨w, last, hnew, hall, hcomplete⟩ := Hex.Writer.writeAll_new hsize (fun piece hpiece => by
    obtain ⟨u, hu, rfl⟩ := hpieces piece hpiece
    exact hfits u hu) hwhole
  obtain ⟨final, hclose, hread⟩ := Hex.Writer.readFile?_close hcomplete
  have hwritten : p.writeHex size wrap = ⟨final.text, none⟩ := by
    simp only [writeHex, hnew, hall, Hex.Writer.andThen, hclose]
  rw [hwritten, located_codes p hfits]
  exact ⟨rfl, hread⟩

/-- The code of a unit in code memory ends in the image. -/
theorem lt_extent_of_mem_codes (h : ∀ u ∈ p.units, u.InMemory)
    (hcode : ∀ u ∈ p.units, u.code = [] ∨ (u.code.length : Int) = u.size)
    (hfits : ∀ u ∈ p.units, Fits u.point u.code) {entry : Nat × UInt8}
    (hentry : entry ∈ located p.codes) : entry.1 < p.extent := by
  rw [located_codes p hfits] at hentry
  obtain ⟨piece, hpiece, hmem⟩ := List.mem_flatMap.mp hentry
  obtain ⟨u, hu, rfl⟩ := List.mem_map.mp hpiece
  have hu := (List.mem_filter.mp hu).1
  have hend := le_extent hu (h u hu)
  rcases hcode u hu with hempty | hlength
  · rw [hempty] at hmem
    cases hmem
  · have hlt := mem_locate_lt hmem
    simp only at hlt
    omega

end Program

/-- Code that fills a unit in code memory lies in the address space of a file. -/
theorem CodeUnit.InMemory.fits {u : CodeUnit} (h : u.InMemory)
    (hcode : u.code = [] ∨ (u.code.length : Int) = u.size) : Fits u.point u.code := by
  intro hne
  have hmost := h.most
  have hsize : codeSize = 0x10000 := rfl
  have hlength := hcode.resolve_left hne
  omega

/-- **The image and the file describe the same memory.** The file of a program without errors is
written without an error. Its records, loaded in order over zeros where space is reserved and the
fill byte elsewhere, give the image, and none of them goes past its end. -/
theorem assemble_load_writeHex (settings : Settings) (path : Text) (lines : List Text)
    (hlines : ∀ line ∈ lines, line.length < lineBound) (report : Report) (p : Program)
    (h : (Assembly.assemble settings (readSource path lines).reading.tokens report).program = .ok p)
    (hclean : (Assembly.assemble settings (readSource path lines).reading.tokens
      report).report.hasErrors = false)
    (size : Int) (hsize : 1 ≤ size ∧ size ≤ 255) (wrap : Hex.Wrap)
    (hwrap : wrap = .byte ∨ ∀ u ∈ p.units, (u.code.length : Int) ≤ size) :
    ∃ bytes, (p.writeHex size wrap).error? = none ∧
      Hex.readFile? (p.writeHex size wrap).text = some bytes ∧
      (∀ a < p.image.length, p.image[a]? = some (load p.blank bytes a)) ∧
      ∀ entry ∈ bytes, entry.1 < p.image.length := by
  have hmemory := Assembly.assemble_inMemory hlines h hclean
  have hfits : ∀ u ∈ p.units, Fits u.point u.code := fun u hu =>
    (hmemory u hu).1.fits (hmemory u hu).2
  have hpictures := Program.pictures_image fun u hu => (hmemory u hu).1
  obtain ⟨herror, hread⟩ := Program.readFile?_writeHex hsize hwrap hfits
  rw [Program.length_image fun u hu => (hmemory u hu).1]
  refine ⟨_, herror, hread, fun a ha => ?_, fun entry hentry => ?_⟩
  · simpa using hpictures.bytes a ha
  · exact Program.lt_extent_of_mem_codes (fun u hu => (hmemory u hu).1)
      (fun u hu => (hmemory u hu).2) hfits hentry

/-- Units that stand in the order of their addresses are not moved. -/
theorem Program.units_ofUnits {units : List CodeUnit}
    (h : units.Pairwise fun u v => u.point ≤ v.point) : (Program.ofUnits units).units = units :=
  List.mergeSort_of_pairwise (h.imp fun hle => decide_eq_true hle)

/-- Data over reserved space, and an instruction over the data. -/
def overlapping : List Text :=
  [Text.ofString ".org 2", Text.ofString ".ds 4", Text.ofString ".org 3", Text.ofString ".db 1, 2",
    Text.ofString ".org 4", Text.ofString "ret"]

theorem assemble_load_writeHex_overlapping : ∃ p,
    (Assembly.assemble {} (readSource [] overlapping).reading.tokens {}).program = .ok p ∧
    (Assembly.assemble {} (readSource [] overlapping).reading.tokens {}).report.hasErrors = false ∧
    ∃ bytes, (p.writeHex 2 .instruction).error? = none ∧
      Hex.readFile? (p.writeHex 2 .instruction).text = some bytes ∧
      (∀ a < p.image.length, p.image[a]? = some (load p.blank bytes a)) ∧
      ∀ entry ∈ bytes, entry.1 < p.image.length := by
  have hok : (Assembly.assemble {} (readSource [] overlapping).reading.tokens {}).program.isOk
      = true := by decide +kernel
  cases hp : (Assembly.assemble {} (readSource [] overlapping).reading.tokens {}).program with
  | error e => rw [hp] at hok; cases hok
  | ok p =>
    obtain ⟨units, hrun, rfl, hreport⟩ := Assembly.assemble_ok hp
    have hsettled : (Layout.run {}
        (segment (readSource [] overlapping).reading.tokens).units).settled?.all (fun units =>
          decide (units.Pairwise fun u v => u.point ≤ v.point) &&
          !(((({} : Report).addFindings
            (segment (readSource [] overlapping).reading.tokens).findings).merge
              (units.flatMap CodeUnit.problems)).addFindings
                (Program.checkFrom 0 none units)).hasErrors &&
          units.all fun u => u.code.length ≤ 2) = true := by
      decide +kernel
    simp only [hrun, Option.all_some, Bool.and_eq_true, decide_eq_true_eq, Bool.not_eq_true',
      List.all_eq_true] at hsettled
    obtain ⟨⟨hsorted, hclean⟩, hshort⟩ := hsettled
    have hunits := Program.units_ofUnits hsorted
    rw [Program.check, hunits] at hreport
    rw [← hreport] at hclean
    refine ⟨_, rfl, hclean, ?_⟩
    exact assemble_load_writeHex {} [] overlapping (by decide +kernel) {} _ hp hclean 2 (by decide)
      .instruction (.inr (by rw [hunits]; exact fun u hu => Int.ofNat_le.mpr (hshort u hu)))

end Mcs51
