import Mcs51.Proofs.BlockPasses
import Mcs51.Proofs.DistinctPoints
import Mcs51.Proofs.PlainText

/-!
# The order of segments does not matter

A source can be cut before every `org`. Assembling its blocks in another order ends in the same way:
with the same error, or with the same labels and with the same units at the same addresses. The
image is the same too if nothing overlaps, because no two units are then at one address and the
order of addresses is the only one left. For this the data of each directive must leave some
addresses free: data that goes around all of them ends where it starts, and hides what it overlaps.

* `Program.image_perm` — the image depends on the order of units only where they share an address
* `assemble_blocks_perm` — blocks in another order are the same program
* `assemble_dataBlocks` — blocks of data that go around are stored one over the other
-/

namespace Mcs51

/-- The unit without the number of its segment. -/
def CodeUnit.unnumbered (u : CodeUnit) : CodeUnit := { u with segment := 0 }

namespace Program

/-! ## The image -/

theorem max_right_comm (a b c : UInt32) : max (max a b) c = max (max a c) b := by
  have hmax : ∀ m n : UInt32, (max m n).toNat = max m.toNat n.toNat := by
    intro m n
    by_cases hle : m ≤ n
    · have hnat := UInt32.le_iff_toNat_le.mp hle
      rw [show max m n = n from if_pos hle]
      omega
    · have hnat := UInt32.lt_iff_toNat_lt.mp (UInt32.not_le.mp hle)
      rw [show max m n = m from if_neg hle]
      omega
  apply UInt32.toNat_inj.mp
  rw [hmax, hmax, hmax, hmax]
  omega

/-- Units without code have no bytes. -/
theorem codes_eq_pieces (p : Program) :
    p.codes = p.pieces.flatMap fun piece => CodeUnit.bytesFrom piece.1 piece.2 := by
  unfold codes pieces
  induction p.units with
  | nil => rfl
  | cons u units ih =>
    rw [List.flatMap_cons, ih]
    cases hcode : u.code with
    | nil =>
      rw [List.filter_cons_of_neg (by simp [hcode]), CodeUnit.codes, hcode]
      rfl
    | cons b code =>
      rw [List.filter_cons_of_pos (by simp [hcode]), List.map_cons, List.flatMap_cons]
      rfl

variable {p p' : Program}
  (hperm : (p.units.map CodeUnit.unnumbered).Perm (p'.units.map CodeUnit.unnumbered))

include hperm

theorem extent_perm : p.extent = p'.extent := by
  have hends := hperm.map CodeUnit.endPoint
  rw [List.map_map, List.map_map] at hends
  have hfold := hends.foldl_eq' (f := max) (fun x _ y _ z => max_right_comm z x y) 0
  exact congrArg (fun word : UInt32 => min word.toNat codeSize) hfold

theorem background_perm (address : UInt32) :
    ({ p with units := p.units.filter CodeUnit.isReservation } : Program).background address
      = ({ p' with units := p'.units.filter CodeUnit.isReservation } : Program).background
          address := by
  have hany := hperm.any_eq (f := fun u => u.isReservation && u.reserves address)
  rw [List.any_map, List.any_map] at hany
  simp only [background, List.any_filter]
  rw [show (p.units.any fun u => u.isReservation && u.reserves address)
    = p'.units.any fun u => u.isReservation && u.reserves address from hany]

/-- The pieces of code are the same if no two of them are at one address. -/
theorem pieces_perm (hsorted : p.units.Pairwise fun u v => u.point ≤ v.point)
    (hsorted' : p'.units.Pairwise fun u v => u.point ≤ v.point)
    (hdistinct : ∀ u ∈ p.units, ∀ v ∈ p.units, u.code ≠ [] → v.code ≠ [] →
      u.point = v.point → u = v) : p.pieces = p'.pieces := by
  have hpieces : p.pieces.Perm p'.pieces := by
    have h := (hperm.filter fun u => !u.code.isEmpty).map fun u => (u.point, u.code)
    rw [List.filter_map, List.filter_map, List.map_map, List.map_map] at h
    exact h
  have hmem : ∀ {a : UInt32} {code : Code}, (a, code) ∈ p.pieces →
      ∃ u ∈ p.units, u.code ≠ [] ∧ u.point = a ∧ u.code = code := by
    intro a code h
    obtain ⟨u, hu, heq⟩ := List.mem_map.mp h
    obtain ⟨hunit, hcode⟩ := List.mem_filter.mp hu
    cases heq
    exact ⟨u, hunit, by simpa using hcode, rfl, rfl⟩
  have hincreasing : ∀ {q : Program}, (q.units.Pairwise fun u v => u.point ≤ v.point) →
      q.pieces.Pairwise fun x y => x.1 ≤ y.1 := by
    intro q h
    rw [pieces, List.pairwise_map]
    exact h.sublist List.filter_sublist
  refine hpieces.eq_of_pairwise ?_ (hincreasing hsorted) (hincreasing hsorted')
  rintro ⟨a, code⟩ ⟨b, code'⟩ hx hy hle hge
  obtain ⟨u, hu, hne, rfl, rfl⟩ := hmem hx
  obtain ⟨v, hv, hne', rfl, rfl⟩ := hmem (hpieces.mem_iff.mpr hy)
  rw [hdistinct u hu v hv hne hne' (UInt32.le_antisymm hle hge)]

/-- **The image depends on the order of units only where they share an address.** -/
theorem image_perm (hsorted : p.units.Pairwise fun u v => u.point ≤ v.point)
    (hsorted' : p'.units.Pairwise fun u v => u.point ≤ v.point)
    (hdistinct : ∀ u ∈ p.units, ∀ v ∈ p.units, u.code ≠ [] → v.code ≠ [] →
      u.point = v.point → u = v) : p.image = p'.image := by
  simp only [image, extent_perm hperm, background_perm hperm, codes_eq_pieces,
    pieces_perm hperm hsorted hsorted' hdistinct]

end Program

/-! ## Assembled programs -/

/-- The programs have the same labels, and the same units at the same addresses. -/
structure Program.Reordered (p p' : Program) : Prop where
  labels : p.labels.Perm p'.labels
  lookup : ∀ name, p.labels.lookup name = p'.labels.lookup name
  units : (p.units.map fun u => (u.point, u.size, u.code)).Perm
    (p'.units.map fun u => (u.point, u.size, u.code))

/-- Both fail alike, or both give programs that agree. -/
def SameOutcome (Agree : Program → Program → Prop) :
    Except NoConvergence Program → Except NoConvergence Program → Prop
  | .ok p, .ok p' => Agree p p'
  | .error e, .error e' => e = e'
  | .ok _, .error _ | .error _, .ok _ => False

namespace Block

variable {final final' : List Block} (hperm : final.Perm final')

include hperm

/-- The units of blocks in another order are the same, up to the numbers of segments. -/
theorem unnumbered_perm :
    ((Program.ofUnits (join 0 final)).units.map CodeUnit.unnumbered).Perm
      ((Program.ofUnits (join 0 final')).units.map CodeUnit.unnumbered) := by
  have hsorted : ∀ units : List CodeUnit,
      ((Program.ofUnits units).units.map CodeUnit.unnumbered).Perm
        (units.map CodeUnit.unnumbered) :=
    fun units => (List.mergeSort_perm units _).map _
  have hjoin : ((join 0 final).map CodeUnit.unnumbered).Perm
      ((join 0 final').map CodeUnit.unnumbered) := by
    rw [map_join (fun _ _ => rfl), map_join (fun _ _ => rfl)]
    exact hperm.flatMap_right _
  exact (hsorted _).trans (hjoin.trans (hsorted _).symm)

theorem reordered (hnodup : (names final).Nodup) :
    (Program.ofUnits (join 0 final)).Reordered (Program.ofUnits (join 0 final')) := by
  have hlabels : (Layout.labels (join 0 final)).Perm (Layout.labels (join 0 final')) := by
    rw [labels_join, labels_join]
    exact hperm.flatMap_right _
  have hkeys : ((Layout.labels (join 0 final)).map Prod.fst).Nodup := by
    rwa [Layout.map_fst_labels, labelNames_join]
  have hunits := (unnumbered_perm hperm).map fun u => (u.point, u.size, u.code)
  rw [List.map_map, List.map_map] at hunits
  exact ⟨hlabels, lookup_perm hlabels hkeys, hunits⟩

end Block

/-- **The order of segments does not matter.** The tokens of a source that are cut into blocks, each
from an `org` on and no label declared twice, give the same with the blocks in another order: the
same error, or the same labels and units. If nothing overlaps, the image is the same too; a block of
data with almost as many bytes as there are addresses is left out there, because its end is taken
for a low address. -/
theorem assemble_blocks_perm (settings : Settings) (path : Text) (lines : List Text)
    (blocks blocks' : List (List Token))
    (hsource : blocks.flatten = (readSource path lines).reading.tokens)
    (hstart : ∀ b ∈ blocks, startsSegment b = true)
    (hnames : (blocks.flatten.filterMap Token.labelName?).Nodup) (hperm : blocks.Perm blocks')
    (report report' : Report) :
    SameOutcome
      (fun p p' => p.Reordered p' ∧
        ((∀ d, .directive d ∈ blocks.flatten → d.data.length + 0x20000 ≤ 4294967296) →
          p.ReportsNoOverlap → p.image = p'.image))
      (Assembly.assemble settings blocks.flatten report).program
      (Assembly.assemble settings blocks'.flatten report').program := by
  have hunits := units_segment hstart hnames
  have hunits' := units_segment (fun b hb => hstart b (hperm.mem_iff.mpr hb))
    ((hperm.flatten.filterMap _).nodup_iff.mp hnames)
  have hnumbered : ∀ b ∈ blocks.map Block.ofTokens, b.Numbered := by
    intro b hb
    obtain ⟨tokens, htokens, rfl⟩ := List.mem_map.mp hb
    exact Block.numbered_ofTokens (hstart tokens htokens)
  have hnodup : (Block.names (blocks.map Block.ofTokens)).Nodup := by
    have hsourceOrder := sourceOrder_segment (hsource ▸ fresh_readSource path lines)
    rw [← Block.labelNames_join 0, ← hunits]
    exact hsourceOrder.nodup
  have hsettle := Block.passes_perm settings ((Layout.limit settings).toNat + 1) hnumbered hnodup
    (hperm.map Block.ofTokens)
  rw [← hunits, ← hunits'] at hsettle
  rcases hsettle with ⟨hnone, hnone'⟩ | ⟨final, final', hfinal, hkeys, hsome, hsome'⟩
  · rw [(Assembly.assemble_of_unsettled hnone report).1,
      (Assembly.assemble_of_unsettled hnone' report').1]
    rfl
  · have hprogram := Assembly.program_of_settled hsome report
    rw [hprogram, Assembly.program_of_settled hsome']
    refine ⟨Block.reordered hfinal hkeys, fun hdata hclear => ?_⟩
    rw [hsource] at hprogram hdata
    refine Program.image_perm (Block.unnumbered_perm hfinal) (Program.pairwise_units _)
      (Program.pairwise_units _) fun u hu v hv huCode hvCode => ?_
    exact Assembly.eq_of_point_eq hprogram hdata hclear hu hv huCode hvCode

/-- Two segments that refer to each other. -/
def twoSegments : List Text :=
  [Text.ofString ".org 0", Text.ofString "start: ljmp there", Text.ofString ".db 1, 2",
    Text.ofString ".org 0x40", Text.ofString "there: mov dptr, #start", Text.ofString "sjmp there"]

theorem assemble_blocks_perm_twoSegments : ∃ p p',
    (Assembly.assemble {} (readSource [] twoSegments).reading.tokens {}).program = .ok p ∧
    (Assembly.assemble {} ((readSource [] twoSegments).reading.tokens.drop 5
      ++ (readSource [] twoSegments).reading.tokens.take 5) {}).program = .ok p' ∧
    p.Reordered p' ∧ p.image = p'.image := by
  generalize htokens : (readSource [] twoSegments).reading.tokens = tokens
  have hsource : [tokens.take 5, tokens.drop 5].flatten = tokens := by simp
  have hsame := assemble_blocks_perm {} [] twoSegments [tokens.take 5, tokens.drop 5]
    [tokens.drop 5, tokens.take 5] (hsource.trans htokens.symm)
    (by rw [← htokens]; decide +kernel) (by rw [hsource, ← htokens]; decide +kernel)
    (List.Perm.swap _ _ _) {} {}
  obtain ⟨p, hp, hquiet, _⟩ := Assembly.exists_sorted {} tokens {}
    (fun units => (Program.checkFrom 0 none units).isEmpty) (by rw [← htokens]; decide +kernel)
  have hclear : p.ReportsNoOverlap := by
    have hnone : p.check = [] := List.isEmpty_iff.mp hquiet
    rw [Program.ReportsNoOverlap, hnone]
    simp
  have hshort : ∀ line ∈ twoSegments, line.length ≤ 30 := by decide +kernel
  have hother : [tokens.drop 5, tokens.take 5].flatten = tokens.drop 5 ++ tokens.take 5 := by simp
  rw [hsource, hother, hp] at hsame
  cases hp' : (Assembly.assemble {} (tokens.drop 5 ++ tokens.take 5) {}).program with
  | error e =>
    rw [hp'] at hsame
    cases hsame
  | ok p' =>
    rw [hp'] at hsame
    refine ⟨p, p', hp, rfl, hsame.1, hsame.2 (fun d hd => ?_) hclear⟩
    have hsized := (sized_readSource hshort (htokens ▸ hd)).data
    omega

/-! ## Data that goes around -/

namespace Layout

theorem changes_self (units : List CodeUnit) : changes units units = 0 := by
  rw [changes, List.countP_eq_zero]
  intro pair hpair
  obtain ⟨i, hi, rfl⟩ := List.mem_iff_getElem.mp hpair
  simp

/-- Units that the second pass leaves alone are settled. -/
theorem settled_of_stable {compile : CodeUnit → CodeUnit} {units next : List CodeUnit} (n : Nat)
    (hfirst : passWith compile units = next) (hnext : passWith compile next = next) :
    (passes compile (n + 2) units).settled? = some next := by
  simp only [passes, hfirst, hnext, changes_self]
  split <;> rfl

end Layout

theorem CodeUnit.mem_of_mem_bytesFrom : ∀ {code : Code} {address : UInt32} {entry : UInt32 × UInt8},
    entry ∈ bytesFrom address code → entry.2 ∈ code
  | b :: code, address, entry, h => by
    rcases List.mem_cons.mp h with rfl | h
    · exact List.mem_cons_self
    · exact List.mem_cons_of_mem b (mem_of_mem_bytesFrom h)

/-- The image is what loading the bytes of a program leaves. -/
theorem Program.exists_load_image (p : Program) : ∃ memory : Nat → UInt8,
    ∀ a < p.extent, p.image[a]? = some (load memory (located p.codes) a) := by
  unfold image
  simp only [Array.getElem?_toList]
  generalize hblank : ((Array.range p.extent).map fun address =>
    ({ p with units := p.units.filter CodeUnit.isReservation } : Program).background
      address.toUInt32) = blank
  have hsize : blank.size = p.extent := by rw [← hblank, Array.size_map, Array.size_range]
  exact ⟨_, fun a ha => (Pictures.self blank).store.bytes a (hsize ▸ ha)⟩

/-- A segment with the data of one directive. -/
def dataBlock (line origin : Int) (data : Text) : List Token :=
  [.directive { kind := .org, position := ⟨[], line⟩, number := origin },
    .directive { kind := .db, position := ⟨[], line + 1⟩, data }]

/-- The unit of such a segment. -/
def dataUnit (number : Nat) (line : Int) (point : UInt32) (data : Text) : CodeUnit :=
  { content := .data { kind := .db, position := ⟨[], line + 1⟩, data }
    origin := point, segment := number, point, code := data, size := data.length
    findings? := some [], settled := true }

theorem endPoint_dataUnit {number : Nat} {line : Int} {point : UInt32} {data : Text}
    (h : toWord data.length = 0) : (dataUnit number line point data).endPoint = point := by
  show point + toWord data.length = point
  rw [h, UInt32.add_zero]

/-- The units of two blocks of data at address 0, and of one with a byte at address 1. -/
def stackedUnits (i j : Int) (x y : Text) : List CodeUnit :=
  [dataUnit 1 i 0 x, dataUnit 2 j 0 y, dataUnit 3 5 1 [5]]

theorem settled_dataBlocks (i j : Int) (x y : Text) :
    (Layout.run {} (segment
        (dataBlock i 0 x ++ dataBlock j 0 y ++ dataBlock 5 1 [5])).units).settled?
      = some (stackedUnits i j x y) :=
  Layout.settled_of_stable 31 rfl rfl

namespace Program

variable {p : Program} {i j : Int} {x y : Text}

/-- Data that goes around ends before everything else, so nothing is said of it. -/
theorem check_stackedUnits (hunits : p.units = stackedUnits i j x y)
    (hx : x ≠ [] ∧ toWord x.length = 0) (hy : y ≠ [] ∧ toWord y.length = 0) : p.check = [] := by
  have hsize : (dataUnit 1 i 0 x).size ≠ 0 := by simpa [dataUnit] using hx.1
  have hsize' : (dataUnit 2 j 0 y).size ≠ 0 := by simpa [dataUnit] using hy.1
  have hlast : (dataUnit 3 5 1 [5]).endPoint = 2 := by decide
  rw [check, hunits, stackedUnits]
  simp only [checkFrom, if_neg hsize, if_neg hsize', endPoint_dataUnit hx.2, endPoint_dataUnit hy.2,
    hlast]
  rfl

theorem extent_stackedUnits (hunits : p.units = stackedUnits i j x y)
    (hx : toWord x.length = 0) (hy : toWord y.length = 0) : p.extent = 2 := by
  have hlast : (dataUnit 3 5 1 [5]).endPoint = 2 := by decide
  rw [extent, hunits, stackedUnits]
  simp only [List.map_cons, List.map_nil, endPoint_dataUnit hx, endPoint_dataUnit hy, hlast]
  decide

/-- Of two blocks at address 0 the later one stays. -/
theorem load_stackedUnits {b : UInt8} (hunits : p.units = stackedUnits i j x y) (hy : y ≠ [])
    (hb : ∀ c ∈ y, c = b) (memory : Nat → UInt8) : load memory (located p.codes) 0 = b := by
  obtain ⟨first, rest, rfl⟩ := List.exists_cons_of_ne_nil hy
  obtain ⟨rfl, hrest⟩ := List.forall_mem_cons.mp hb
  have hcodes : p.codes = CodeUnit.bytesFrom 0 x
      ++ (0, first) :: (CodeUnit.bytesFrom 1 rest ++ [(1, 5)]) := by
    rw [codes, hunits]
    rfl
  have hlater : located ((0, first) :: (CodeUnit.bytesFrom 1 rest ++ [(1, 5)]))
      = (0, first) :: located (CodeUnit.bytesFrom 1 rest ++ [(1, 5)]) := rfl
  rw [hcodes, located_append, load_append, hlater, load]
  -- the first byte of the later block is stored, and what follows agrees with it at address 0
  refine load_of_agree (fun entry hentry haddress => ?_) (if_pos rfl)
  obtain ⟨⟨address, c⟩, hmem, rfl⟩ := List.mem_map.mp hentry
  rcases List.mem_append.mp hmem with hmem | hmem
  · exact hrest c (CodeUnit.mem_of_mem_bytesFrom hmem)
  · cases List.mem_singleton.mp hmem
    cases haddress

end Program

/-- **Data that goes around is stored, and nothing is said of it.** Of two blocks of such data at
address 0 the later one stays, here seen through a third block. -/
theorem assemble_dataBlocks {x y : Text} {b : UInt8} (i j : Int)
    (hx : x ≠ [] ∧ toWord x.length = 0) (hy : y ≠ [] ∧ toWord y.length = 0) (hb : ∀ c ∈ y, c = b) :
    ∃ p, (Assembly.assemble {}
        (dataBlock i 0 x ++ dataBlock j 0 y ++ dataBlock 5 1 [5]) {}).program = .ok p ∧
      p.check = [] ∧ p.image[0]? = some b := by
  refine ⟨_, Assembly.program_of_settled (settled_dataBlocks i j x y) {}, ?_⟩
  have hunits : (Program.ofUnits (stackedUnits i j x y)).units = stackedUnits i j x y :=
    Program.units_ofUnits (by simp [stackedUnits, dataUnit])
  obtain ⟨memory, himage⟩ := (Program.ofUnits (stackedUnits i j x y)).exists_load_image
  refine ⟨Program.check_stackedUnits hunits hx hy, ?_⟩
  rw [himage 0 (by rw [Program.extent_stackedUnits hunits hx.2 hy.2]; decide),
    Program.load_stackedUnits hunits hy.1 hb]

/-- Two segments with `n` letters each at address 0, and one with a byte at address 1. -/
def stackedSegments (n : Nat) : List Text :=
  let letters (b : UInt8) :=
    Source.stringLine (Text.doubleQuote :: List.replicate n b ++ [Text.doubleQuote])
  [Text.ofString ".org 0", letters 0x61, Text.ofString ".org 0", letters 0x62,
    Text.ofString ".org 1", Text.ofString ".db 5"]

theorem reading_stackedSegments (n : Nat) : (readSource [] (stackedSegments n)).reading
    = { tokens := [dataBlock 1 0 (List.replicate n 0x61), dataBlock 3 0 (List.replicate n 0x62),
        dataBlock 5 1 [5]].flatten } := by
  have hletters {b : UInt8} (h : Text.isPlain b = true ∧ b ≠ Text.backslash) (pos : Position) :
      Line.read (Source.stringLine
        (Text.doubleQuote :: List.replicate n b ++ [Text.doubleQuote])) pos
      = { tokens := [.directive { kind := .db, position := pos, data := List.replicate n b }] } :=
    Source.read_plainString (fun c hc => List.eq_of_mem_replicate hc ▸ h) pos
  have hfirst := @hletters 0x61 (by decide)
  have hsecond := @hletters 0x62 (by decide)
  simp only [readSource, stackedSegments, readLinesFrom, hfirst, hsecond]
  rfl

/-- With as many letters as there are addresses, the order of the first two segments decides what is
at address 0, and nothing is reported in either order. -/
theorem stackedSegments_reordered : ∃ first second third p p',
    (readSource [] (stackedSegments 4294967296)).reading
      = { tokens := [first, second, third].flatten } ∧
    (∀ b ∈ [first, second, third], startsSegment b = true) ∧
    [first, second, third].flatten.filterMap Token.labelName? = [] ∧
    (Assembly.assemble {} [first, second, third].flatten {}).program = .ok p ∧
    (Assembly.assemble {} [second, first, third].flatten {}).program = .ok p' ∧
    p.check = [] ∧ p'.check = [] ∧ p.image[0]? = some 0x62 ∧ p'.image[0]? = some 0x61 := by
  have hsome : (4294967296 : Nat) ≠ 0 := by decide
  have haround : toWord (4294967296 : Nat) = 0 := by decide
  -- all that matters of the number; the letters are never counted out
  generalize (4294967296 : Nat) = n at hsome haround ⊢
  have hdata (b : UInt8) : List.replicate n b ≠ [] ∧ toWord (List.replicate n b).length = 0 := by
    rw [List.length_replicate, Ne, List.replicate_eq_nil_iff]
    exact ⟨hsome, haround⟩
  obtain ⟨p, hp, hcheck, himage⟩ := assemble_dataBlocks 1 3 (hdata 0x61) (hdata 0x62)
    fun c hc => List.eq_of_mem_replicate hc
  obtain ⟨p', hp', hcheck', himage'⟩ := assemble_dataBlocks 3 1 (hdata 0x62) (hdata 0x61)
    fun c hc => List.eq_of_mem_replicate hc
  refine ⟨_, _, _, p, p', reading_stackedSegments n, ?_, rfl, hp, hp', hcheck, hcheck', himage,
    himage'⟩
  simp [startsSegment, dataBlock]

end Mcs51
