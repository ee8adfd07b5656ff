import Mcs51.Proofs.AddressSums
import Mcs51.Proofs.MemoryImage

/-!
# The views of a program agree

The bytes of a program can be listed with their addresses, read from the image, and located by
address. The list goes through all units, the image keeps the last byte that is stored at an
address, and locating finds the first unit with code there. They say the same if no code overlaps.

* `Program.ReportsNoOverlap.before`: units that the check finds not to overlap follow each other.
* `CodeUnit.indexOf?_eq_some`: a unit is found at an address exactly if it has a byte there.
* `Program.Tidy.viewsAgree`: the views agree for units in code memory that follow each other.
* `assemble_views`: the three views of an assembled program agree.
-/

namespace Mcs51

/-! ## Overlaps -/

/-- The unit ends before the other begins, if neither is empty. -/
def CodeUnit.Before (u v : CodeUnit) : Prop := u.size ≠ 0 → v.size ≠ 0 → u.endPoint ≤ v.point

namespace Program

/-- The check reports no overlap. -/
def ReportsNoOverlap (p : Program) : Prop :=
  ∀ f ∈ p.check, ∀ here there, f.complaint ≠ .overlap here there

/-- What is checked after units that end at `reach` begins there or later. -/
theorem before_of_checkFrom : ∀ {units : List CodeUnit} {reach : UInt32} {last? : Option CodeUnit},
    (last? = none → reach = 0) →
      (∀ f ∈ checkFrom reach last? units, ∀ here there, f.complaint ≠ .overlap here there) →
      (∀ u ∈ units, u.size ≠ 0 → reach ≤ u.point) ∧ units.Pairwise CodeUnit.Before
  | [], _, _, _, _ => ⟨nofun, .nil⟩
  | v :: units, reach, last?, hreach, hclear => by
    unfold checkFrom at hclear
    split at hclear
    · next hzero =>
      obtain ⟨hlater, hpairs⟩ := before_of_checkFrom hreach hclear
      refine ⟨fun u hu hsize => ?_, List.pairwise_cons.mpr ⟨fun _ _ hv => absurd hzero hv, hpairs⟩⟩
      rcases List.mem_cons.mp hu with rfl | hu
      · exact absurd hzero hsize
      · exact hlater u hu hsize
    · simp only [List.mem_append] at hclear
      obtain ⟨hlater, hpairs⟩ := @before_of_checkFrom units (max reach v.endPoint) (some v)
        (by rintro ⟨⟩) fun f hf => hclear f (.inr hf)
      -- the first unit that is not empty has nothing to overlap, and starts at zero or later
      have hfirst : reach ≤ v.point := by
        cases last? with
        | none => exact hreach rfl ▸ UInt32.zero_le
        | some last =>
          refine UInt32.not_lt.mp fun hlt => ?_
          exact hclear _ (.inl (.inl (by simp only [if_pos hlt]; exact List.mem_singleton_self _)))
            _ _ rfl
      constructor
      · intro u hu hsize
        rcases List.mem_cons.mp hu with rfl | hu
        · exact hfirst
        · exact UInt32.le_trans (le_max_word reach v.endPoint).1 (hlater u hu hsize)
      · refine List.pairwise_cons.mpr ⟨fun u hu _ hsize => ?_, hpairs⟩
        exact UInt32.le_trans (le_max_word reach v.endPoint).2 (hlater u hu hsize)

/-- **Units that the check finds not to overlap follow each other.** -/
theorem ReportsNoOverlap.before {p : Program} (h : p.ReportsNoOverlap) :
    p.units.Pairwise CodeUnit.Before :=
  (before_of_checkFrom (fun _ => rfl) h).2

end Program

/-! ## The bytes of a unit -/

open Hex (Fits)

namespace CodeUnit

/-- The bytes that count on from an address, by their index. -/
theorem mem_bytesFrom : ∀ {code : Code} {address : UInt32}, Fits address code →
    ∀ {a : UInt32} {b : UInt8}, (a, b) ∈ bytesFrom address code ↔
      address.toNat ≤ a.toNat ∧ code[a.toNat - address.toNat]? = some b
  | [], _, _, _, _ => by simp [bytesFrom]
  | c :: code, address, hfits, a, b => by
    have hone : (address + 1).toNat = address.toNat + 1 :=
      Hex.toNat_add_length (hfits.head (by simp))
    have ih := mem_bytesFrom hfits.tail (a := a) (b := b)
    rw [bytesFrom, List.mem_cons, ih, hone, Prod.mk.injEq]
    constructor
    · rintro (⟨rfl, rfl⟩ | ⟨hle, hbyte⟩)
      · exact ⟨Nat.le_refl _, by rw [Nat.sub_self, List.getElem?_cons_zero]⟩
      · refine ⟨by omega, ?_⟩
        rw [show a.toNat - address.toNat = a.toNat - (address.toNat + 1) + 1 by omega,
          List.getElem?_cons_succ]
        exact hbyte
    · rintro ⟨hle, hbyte⟩
      by_cases heq : a.toNat = address.toNat
      · rw [heq, Nat.sub_self, List.getElem?_cons_zero, Option.some.injEq] at hbyte
        exact .inl ⟨UInt32.toNat_inj.mp heq, hbyte.symm⟩
      · rw [show a.toNat - address.toNat = a.toNat - (address.toNat + 1) + 1 by omega,
          List.getElem?_cons_succ] at hbyte
        exact .inr ⟨by omega, hbyte⟩

theorem increasing_bytesFrom : ∀ {code : Code} {address : UInt32}, Fits address code →
    (bytesFrom address code).Pairwise fun x y => x.1 < y.1
  | [], _, _ => .nil
  | c :: code, address, hfits => by
    have hone : (address + 1).toNat = address.toNat + 1 :=
      Hex.toNat_add_length (hfits.head (by simp))
    refine List.pairwise_cons.mpr ⟨fun entry hentry => ?_, increasing_bytesFrom hfits.tail⟩
    have hle := ((mem_bytesFrom hfits.tail).mp hentry).1
    rw [hone] at hle
    exact UInt32.lt_iff_toNat_lt.mpr hle

variable {u : CodeUnit}

/-- **A unit is found at an address exactly if it has a byte there**, and the index is that of the
byte. -/
theorem indexOf?_eq_some (hfits : Fits u.point u.code) {a : UInt32} {i : Nat} :
    u.indexOf? a = some i ↔
      u.point.toNat ≤ a.toNat ∧ i = a.toNat - u.point.toNat ∧ i < u.code.length := by
  have hend : (u.point + u.code.length.toUInt32).toNat = u.point.toNat + u.code.length := by
    by_cases hempty : u.code = []
    · rw [hempty]
      exact congrArg UInt32.toNat (UInt32.add_zero u.point)
    · have hinside := hfits hempty
      rw [UInt32.toNat_add, Nat.toUInt32_eq, UInt32.toNat_ofNat']
      omega
  unfold indexOf?
  simp only [Bool.and_eq_true, decide_eq_true_eq, UInt32.le_iff_toNat_le, UInt32.lt_iff_toNat_lt,
    hend]
  split
  · next hinside =>
    have hindex : (a - u.point).toNat = a.toNat - u.point.toNat :=
      UInt32.toNat_sub_of_le _ _ (UInt32.le_iff_toNat_le.mpr hinside.1)
    rw [hindex, Option.some.injEq]
    constructor
    · rintro rfl
      exact ⟨hinside.1, rfl, by omega⟩
    · exact fun h => h.2.1.symm
  · next houtside =>
    refine iff_of_false nofun fun h => houtside ⟨h.1, by omega⟩

theorem mem_codes_of_indexOf? (hfits : Fits u.point u.code) {a : UInt32} {i : Nat}
    (h : u.indexOf? a = some i) : ∃ b, u.code[i]? = some b ∧ (a, b) ∈ u.codes := by
  obtain ⟨hle, rfl, hlt⟩ := (indexOf?_eq_some hfits).mp h
  exact ⟨_, List.getElem?_eq_getElem hlt,
    (mem_bytesFrom hfits).mpr ⟨hle, List.getElem?_eq_getElem hlt⟩⟩

theorem indexOf?_of_mem_codes (hfits : Fits u.point u.code) {a : UInt32} {b : UInt8}
    (h : (a, b) ∈ u.codes) : (u.indexOf? a).isSome = true := by
  obtain ⟨hle, hbyte⟩ := (mem_bytesFrom hfits).mp h
  have hlt := (List.getElem?_eq_some_iff.mp hbyte).1
  rw [(indexOf?_eq_some hfits).mpr ⟨hle, rfl, hlt⟩]
  rfl

end CodeUnit

/-! ## The bytes of a program -/

theorem load_of_not_mem : ∀ {bytes : List (Nat × UInt8)} {memory : Nat → UInt8} {a : Nat},
    (∀ entry ∈ bytes, entry.1 ≠ a) → load memory bytes a = memory a
  | [], _, _, _ => rfl
  | (address, b) :: bytes, memory, a, h => by
    have hother : a ≠ address := fun heq => h _ List.mem_cons_self heq.symm
    rw [load, load_of_not_mem fun entry hentry => h entry (List.mem_cons_of_mem _ hentry),
      if_neg hother]

/-- Of bytes at different addresses each stays. -/
theorem load_of_mem : ∀ {bytes : List (Nat × UInt8)} {memory : Nat → UInt8} {a : Nat} {b : UInt8},
    (bytes.Pairwise fun x y => x.1 < y.1) → (a, b) ∈ bytes → load memory bytes a = b
  | (address, c) :: bytes, memory, a, b, hincreasing, hmem => by
    obtain ⟨hfirst, hrest⟩ := List.pairwise_cons.mp hincreasing
    rcases List.mem_cons.mp hmem with heq | hmem
    · cases heq
      rw [load, load_of_not_mem fun entry hentry => Nat.ne_of_gt (hfirst entry hentry), if_pos rfl]
    · rw [load]
      exact load_of_mem hrest hmem

namespace Program

/-- The unit with code at an address, the list of all bytes and the image agree, and the image holds
nothing else but reserved space and fill bytes. -/
structure ViewsAgree (p : Program) : Prop where
  /-- Bytes are listed in the order of their addresses, one for each address. -/
  increasing : p.codes.Pairwise fun x y => x.1 < y.1
  /-- There is a unit at an address exactly if a byte is listed there. -/
  located : ∀ a, (∃ u i, p.locate a = some (u, i)) ↔ ∃ b, (a, b) ∈ p.codes
  /-- The byte of that unit is in the image, and is the one that is listed. -/
  byte : ∀ a u i, p.locate a = some (u, i) → u ∈ p.units ∧ ∃ b, u.code[i]? = some b ∧
    p.image[a.toNat]? = some b ∧ ∀ c, (a, c) ∈ p.codes ↔ c = b
  /-- Elsewhere there is zero in reserved space, and the fill byte. -/
  blank : ∀ a < p.image.length, (∀ b, (a.toUInt32, b) ∉ p.codes) →
    p.image[a]? = some (if p.Reserved a then 0 else fillByte)

/-- Units that are compiled, lie in code memory unless they are empty, and follow each other. -/
structure Tidy (p : Program) : Prop where
  memory : ∀ u ∈ p.units, u.size ≠ 0 → u.InMemory
  code : ∀ u ∈ p.units, u.code = [] ∨ (u.code.length : Int) = u.size
  before : p.units.Pairwise CodeUnit.Before

variable {p : Program}

/-- A unit with code is not empty. -/
theorem Tidy.inMemory (h : p.Tidy) {u : CodeUnit} (hu : u ∈ p.units) (hcode : u.code ≠ []) :
    u.InMemory ∧ (u.code.length : Int) = u.size := by
  have hlength := (h.code u hu).resolve_left hcode
  have hpositive := List.length_pos_iff.mpr hcode
  exact ⟨h.memory u hu (by omega), hlength⟩

theorem Tidy.fits (h : p.Tidy) {u : CodeUnit} (hu : u ∈ p.units) : Fits u.point u.code :=
  fun hcode => (h.inMemory hu hcode).1.fits (h.code u hu) hcode

/-- The addresses of a unit's code end where the unit does. -/
theorem Tidy.mem_codes (h : p.Tidy) {u : CodeUnit} (hu : u ∈ p.units) {entry : UInt32 × UInt8}
    (hentry : entry ∈ u.codes) :
    u.InMemory ∧ u.size ≠ 0 ∧ u.point.toNat ≤ entry.1.toNat ∧
      (entry.1.toNat : Int) < u.point.toNat + u.size := by
  obtain ⟨hle, hbyte⟩ := (CodeUnit.mem_bytesFrom (h.fits hu)).mp hentry
  have hlt := (List.getElem?_eq_some_iff.mp hbyte).1
  obtain ⟨hmemory, hlength⟩ := h.inMemory hu (List.ne_nil_of_length_pos (by omega))
  exact ⟨hmemory, by omega, hle, by omega⟩

/-- **The addresses of the bytes of a tidy program increase.** -/
theorem Tidy.increasing_codes (h : p.Tidy) : p.codes.Pairwise fun x y => x.1 < y.1 := by
  refine List.pairwise_flatMap.mpr
    ⟨fun u hu => CodeUnit.increasing_bytesFrom (h.fits hu), ?_⟩
  refine h.before.imp_of_mem fun {u v} hu hv hbefore x hx y hy => ?_
  obtain ⟨hmemory, hsized, _, hend⟩ := h.mem_codes hu hx
  obtain ⟨_, hsized', hstart, _⟩ := h.mem_codes hv hy
  have hfollows := UInt32.le_iff_toNat_le.mp (hbefore hsized hsized')
  have hunwrapped := hmemory.unwrapped.endPoint
  exact UInt32.lt_iff_toNat_lt.mpr (by omega)

theorem Tidy.located_iff (h : p.Tidy) (a : UInt32) :
    (∃ u i, p.locate a = some (u, i)) ↔ ∃ b, (a, b) ∈ p.codes := by
  constructor
  · rintro ⟨u, i, hlocate⟩
    obtain ⟨v, hv, hindex⟩ := List.exists_of_findSome?_eq_some hlocate
    obtain ⟨j, hj, heq⟩ := Option.map_eq_some_iff.mp hindex
    obtain ⟨b, _, hmem⟩ := CodeUnit.mem_codes_of_indexOf? (h.fits hv) hj
    exact ⟨b, List.mem_flatMap.mpr ⟨v, hv, hmem⟩⟩
  · rintro ⟨b, hb⟩
    obtain ⟨v, hv, hmem⟩ := List.mem_flatMap.mp hb
    have hindex := CodeUnit.indexOf?_of_mem_codes (h.fits hv) hmem
    cases hlocate : p.locate a with
    | some found => exact ⟨found.1, found.2, rfl⟩
    | none =>
      have hnone := List.findSome?_eq_none_iff.mp hlocate v hv
      rw [Option.map_eq_none_iff] at hnone
      rw [hnone] at hindex
      cases hindex

theorem Tidy.lt_extent (h : p.Tidy) {entry : UInt32 × UInt8} (hentry : entry ∈ p.codes) :
    entry.1.toNat < p.extent := by
  obtain ⟨u, hu, hmem⟩ := List.mem_flatMap.mp hentry
  obtain ⟨hmemory, _, _, hend⟩ := h.mem_codes hu hmem
  have hle := le_extent hu hmemory
  omega

/-- The bytes of a tidy program with addresses as numbers. -/
theorem Tidy.increasing_located (h : p.Tidy) :
    (located p.codes).Pairwise fun x y => x.1 < y.1 :=
  List.pairwise_map.mpr (h.increasing_codes.imp fun hlt => UInt32.lt_iff_toNat_lt.mp hlt)

theorem Tidy.image_of_mem (h : p.Tidy) {a : UInt32} {b : UInt8} (hmem : (a, b) ∈ p.codes) :
    p.image[a.toNat]? = some b := by
  have hpictures := pictures_image_of_sized h.memory
  have hbyte := hpictures.bytes a.toNat (h.lt_extent hmem)
  rw [load_of_mem h.increasing_located (List.mem_map_of_mem hmem)] at hbyte
  simpa using hbyte

theorem Tidy.image_of_not_mem (h : p.Tidy) {a : Nat} (ha : a < p.image.length)
    (hfree : ∀ b, (a.toUInt32, b) ∉ p.codes) :
    p.image[a]? = some (if p.Reserved a then 0 else fillByte) := by
  have hpictures := pictures_image_of_sized h.memory
  have hextent : a < p.extent := hpictures.size ▸ ha
  have hmemory : p.extent ≤ codeSize := Nat.min_le_right _ _
  have hbyte := hpictures.bytes a hextent
  rw [load_of_not_mem fun entry hentry heq => ?_] at hbyte
  · simpa [Program.blank] using hbyte
  · obtain ⟨⟨address, b⟩, hmem, rfl⟩ := List.mem_map.mp hentry
    refine hfree b ?_
    rw [← heq, show address.toNat.toUInt32 = address from UInt32.ofNat_toNat]
    exact hmem

/-- **The views of a tidy program agree.** -/
theorem Tidy.viewsAgree (h : p.Tidy) : p.ViewsAgree where
  increasing := h.increasing_codes
  located := h.located_iff
  byte := by
    intro a u i hlocate
    obtain ⟨v, hv, hindex⟩ := List.exists_of_findSome?_eq_some hlocate
    obtain ⟨j, hj, heq⟩ := Option.map_eq_some_iff.mp hindex
    cases heq
    obtain ⟨b, hbyte, hmem⟩ := CodeUnit.mem_codes_of_indexOf? (h.fits hv) hj
    have hlisted : (a, b) ∈ p.codes := List.mem_flatMap.mpr ⟨u, hv, hmem⟩
    have himage := h.image_of_mem hlisted
    refine ⟨hv, b, hbyte, himage, fun c => ⟨fun hc => ?_, fun hc => hc ▸ hlisted⟩⟩
    rw [h.image_of_mem hc] at himage
    exact Option.some.inj himage
  blank := fun _ ha hfree => h.image_of_not_mem ha hfree

end Program

/-! ## Assembled programs -/

/-- The code of each unit of a program fills it, or there is none. -/
theorem Assembly.length_code_of_ok {settings : Settings} {tokens : List Token} {report : Report}
    {p : Program} (h : (assemble settings tokens report).program = .ok p) :
    ∀ u ∈ p.units, u.code = [] ∨ (u.code.length : Int) = u.size := by
  obtain ⟨units, hrun, rfl, _⟩ := assemble_ok h
  obtain ⟨last, hreached, hfinal, _⟩ := Layout.passes_settled
    (Layout.Reached settings ((segment tokens).units.map CodeUnit.bare))
    (fun _ => Layout.Reached.pass) _ _ ⟨rfl, fun u hu => (unseen_segment tokens u hu).honest⟩ hrun
  intro u hu
  rw [Program.mem_ofUnits] at hu
  exact CodeUnit.length_code (hreached.pass.honest u (hfinal ▸ hu))
    (Layout.last_recompile hreached hfinal u hu)

/-- **The views of a program agree.** Whatever the tokens, if the units that are not empty lie in
code memory and no overlap is reported, then bytes are listed by increasing address, a unit is
located exactly where a byte is listed, its byte is the one in the list and in the image, and the
rest of the image is reserved space and fill bytes. -/
theorem assemble_views (settings : Settings) (tokens : List Token) (report : Report) (p : Program)
    (h : (Assembly.assemble settings tokens report).program = .ok p)
    (hmemory : ∀ u ∈ p.units, u.size ≠ 0 → u.InMemory) (hclear : p.ReportsNoOverlap) :
    p.ViewsAgree := by
  have htidy : p.Tidy := ⟨hmemory, Assembly.length_code_of_ok h, hclear.before⟩
  exact htidy.viewsAgree

/-- Reserved space between code, a gap, an instruction that cannot be encoded, and data at the end
of code memory. -/
def scattered : List Text :=
  [Text.ofString ".org 2", Text.ofString "nop", Text.ofString ".ds 2", Text.ofString "mov a, #1",
    Text.ofString "sjmp 0x4000", Text.ofString ".org 0xfffe", Text.ofString ".dw 0x1234"]

theorem assemble_views_scattered : ∃ p,
    (Assembly.assemble {} (readSource [] scattered).reading.tokens {}).program = .ok p ∧
      (∀ u ∈ p.units, u.size ≠ 0 → u.InMemory) ∧ p.ReportsNoOverlap ∧ p.ViewsAgree := by
  obtain ⟨p, hp, hknown, _⟩ := Assembly.exists_sorted {} (readSource [] scattered).reading.tokens {}
    (fun units => (Program.checkFrom 0 none units).isEmpty && units.all fun u =>
      decide (0 ≤ u.size) && decide (u.point.toNat + u.size ≤ codeSize))
    (by decide +kernel)
  simp only [Bool.and_eq_true, List.isEmpty_iff, List.all_eq_true, decide_eq_true_eq] at hknown
  obtain ⟨hcheck, hbounds⟩ := hknown
  have hmemory : ∀ u ∈ p.units, u.size ≠ 0 → u.InMemory :=
    fun u hu _ => ⟨(hbounds u hu).1, (hbounds u hu).2⟩
  have hclear : p.ReportsNoOverlap := by
    intro f hf
    rw [Program.check, hcheck] at hf
    cases hf
  exact ⟨p, hp, hmemory, hclear, assemble_views {} _ {} p hp hmemory hclear⟩

end Mcs51
