import Mcs51.Command
import Mcs51.Proofs.MemoryImage
import Mcs51.Proofs.ValidSettings

/-!
# The output file is written whole

The file of a program can end early for two reasons of its own: a record size out of bounds, or code
past the address space of the file. A run that comes to write has met neither. The switches keep the
record size in its bounds, wherever they come from, and a program without errors lies in code
memory. So what a run creates is either written whole or lost to the file system.

Nothing is assumed of the files, or of how settings documents and expressions are read.

* `Command.valid_readSettings`: the settings of every run are valid, so their record size is.
* `Program.error?_writeHex`: a program in the address space is written without an error.
* `Command.runOn_of_reaches`: a run that comes to write fails only if writing does.
-/

namespace Mcs51

/-! ## Settings -/

namespace Command

theorem valid_applySettings : ∀ {items : List Text} {s t : Settings}, s.Valid →
    applySettings s items = .ok t → t.Valid
  | [], _, _, hs, h => Except.ok.inj h ▸ hs
  | item :: items, s, t, hs, h => by
    unfold applySettings at h
    split at h
    · cases h
    · split at h
      · cases h
      · next hset => exact valid_applySettings (hs.set hset) h

theorem valid_settingsOfFile {readers : Readers} {path : Text}
    {contents : Except FileError Text} {s : Settings}
    (h : settingsOfFile readers path contents = .ok s) : s.Valid := by
  unfold settingsOfFile at h
  cases contents with
  | ok document =>
    have hload := Settings.valid_standard.load document readers.table?
    simp only at h
    split at h
    · next hloaded => cases hloaded
    · cases h
    · next hloaded =>
      cases h
      rwa [Except.ok.inj hloaded] at hload
  | error e =>
    simp only at h
    split at h
    · cases h
    · cases h
    · next hloaded =>
      cases h
      split at hloaded <;> cases hloaded

variable {σ : Type} {readers : Readers} {files : Files (StateM σ)} {o : Options}

/-- The settings of every run are valid. -/
theorem valid_readSettings {before after : σ} {s : Settings}
    (h : readSettings readers files o before = (.ok s, after)) : s.Valid := by
  unfold readSettings at h
  split at h
  · exact valid_applySettings Settings.valid_standard (congrArg Prod.fst h)
  · obtain ⟨contents, mid, hread⟩ : ∃ contents mid, files.read o.config before = (contents, mid) :=
      ⟨_, _, rfl⟩
    simp only [bind, StateT.bind, hread] at h
    cases hfile : settingsOfFile readers o.config contents with
    | error e =>
      rw [hfile] at h
      cases h
    | ok loaded =>
      rw [hfile] at h
      exact valid_applySettings (valid_settingsOfFile hfile) (congrArg Prod.fst h)

end Command

/-! ## Programs -/

/-- **A program in the address space is written without an error**, whichever way its units are
split into records. -/
theorem Program.error?_writeHex {p : Program} {size : Int} {wrap : Hex.Wrap}
    (hsize : 1 ≤ size ∧ size ≤ 255) (hfits : ∀ u ∈ p.units, Hex.Fits u.point u.code) :
    (p.writeHex size wrap).error? = none := by
  have hpieces : ∀ piece ∈ p.pieces, Hex.Fits piece.1 piece.2 := by
    intro piece hpiece
    obtain ⟨u, hu, rfl⟩ := List.mem_map.mp hpiece
    exact hfits u (List.mem_filter.mp hu).1
  have hnew : Hex.Writer.new size wrap = .ok { size := size.toNat, wrap } := if_pos hsize
  have hempty : Hex.Writer.InSpace { size := size.toNat, wrap } :=
    Hex.Writer.inSpace_of_buffer_eq_nil rfl
  obtain ⟨hall, hspace⟩ := Hex.Writer.writeAll_eq hempty hpieces
  simp only [writeHex, hnew, hall, Hex.Writer.andThen, Hex.Writer.close_eq hspace]

namespace Command

/-- The lines of a source as they are prepared for a run. -/
def preparedLines (readers : Readers) (o : Options) (path text : Text) : List Text :=
  (Source.prepare path o.equates (Text.readLines text).lines readers.evaluate).lines

/-- A source that is assembled gives a program without errors. -/
theorem assembleText_ok {readers : Readers} {o : Options} {s : Settings} {path text : Text}
    {p : Program} (h : (assembleText readers o s path text).result = .ok p) :
    ∃ report,
      let tokens := (readSource path (preparedLines readers o path text)).reading.tokens
      (Assembly.assemble s tokens report).program = .ok p ∧
        (Assembly.assemble s tokens report).report.hasErrors = false := by
  unfold assembleText at h
  simp only at h
  split at h
  · cases h
  · split at h
    · cases h
    · cases h
    · next hprogram hfailure =>
      cases h
      refine ⟨_, hprogram, ?_⟩
      unfold Report.failure? at hfailure
      split at hfailure
      · cases hfailure
      · next herrors => exact Bool.eq_false_iff.mpr herrors

/-- What is emitted of a source that is assembled is complete. -/
theorem error?_emit {readers : Readers} {o : Options} {s : Settings} (hs : s.Valid)
    {path text : Text} {p : Program} (h : (assembleText readers o s path text).result = .ok p)
    (hlines : ∀ line ∈ preparedLines readers o path text, line.length < lineBound) :
    (o.emit s p).error? = none := by
  obtain ⟨report, hprogram, hclean⟩ := assembleText_ok h
  have hmemory := Assembly.assemble_inMemory hlines hprogram hclean
  unfold Options.emit
  split
  · rfl
  · exact Program.error?_writeHex hs.recordSize fun u hu => (hmemory u hu).1.fits (hmemory u hu).2

/-! ## Runs -/

/-- The run comes to create its output file: the settings and the source are read, and the source is
assembled to a program. -/
structure Reaches {σ : Type} (readers : Readers) (files : Files (StateM σ)) (o : Options)
    (source : Text) (before : σ) (text : Text) (s : Settings) (p : Program) (after : σ) :
    Prop where
  read : ∃ mid, readSettings readers files o before = (.ok s, mid) ∧
    files.read source mid = (.ok text, after)
  assembled : (assembleText readers o s source text).result = .ok p

/-- **A run that comes to create its output file fails only if the file system does.** What is
emitted of the program is complete, and the run ends as the attempt to write it does. -/
theorem runOn_of_reaches {σ : Type} {readers : Readers} {files : Files (StateM σ)} {o : Options}
    {source text : Text} {before after : σ} {s : Settings} {p : Program}
    (h : Reaches readers files o source before text s p after)
    (hlines : ∀ line ∈ preparedLines readers o source text, line.length < lineBound) :
    (o.emit s p).error? = none ∧
      (runOn readers files o source before).1.result
        = (files.write (o.outputPath source) (o.emit s p).text after).1.mapError .file := by
  obtain ⟨⟨mid, hsettings, hread⟩, hassembled⟩ := h
  have hcomplete := error?_emit (valid_readSettings hsettings) hassembled hlines
  refine ⟨hcomplete, ?_⟩
  simp only [runOn, bind, StateT.bind, hsettings, hread, hassembled, writeOutput]
  cases files.write (o.outputPath source) (o.emit s p).text after with
  | mk result final =>
    cases result with
    | error e => rfl
    | ok u => simp only [hcomplete]; rfl

/-- A jump that fills the last three bytes of code memory. Its target is an expression. -/
def topOfMemory : FileTree :=
  .ofList [(Text.ofString "top.asm", Text.ofString ".org 0xfffd\nljmp $(far)")]

/-- The jump is split between two records. Its target is defined by an option. -/
theorem runOn_of_reaches_topOfMemory :
    let o : Options :=
      { recordSize? := some 2, byteWrap := true, defines := [Text.ofString "far=0x1234"] }
    let source := Text.ofString "top.asm"
    ∃ text s p after,
      Reaches {} FileTree.access o source topOfMemory text s p after ∧
      (∀ line ∈ preparedLines {} o source text, line.length < lineBound) ∧
      (o.emit s p).error? = none ∧
      (runOn {} FileTree.access o source topOfMemory).1.result = .ok () := by
  intro o source
  let text := Text.ofString ".org 0xfffd\nljmp $(far)"
  let s : Settings := { recordSize := 2 }
  have hok : (assembleText {} o s source text).result.isOk = true := by decide +kernel
  cases hassembled : (assembleText {} o s source text).result with
  | error e => rw [hassembled] at hok; cases hok
  | ok p =>
    have hsettings : readSettings {} FileTree.access o topOfMemory = (.ok s, topOfMemory) := by
      with_unfolding_all rfl
    have hreaches : Reaches {} FileTree.access o source topOfMemory text s p topOfMemory :=
      ⟨⟨topOfMemory, hsettings, rfl⟩, hassembled⟩
    have hlines : ∀ line ∈ preparedLines {} o source text, line.length < lineBound := by
      decide +kernel
    obtain ⟨hcomplete, hrun⟩ := runOn_of_reaches hreaches hlines
    exact ⟨_, _, _, _, hreaches, hlines, hcomplete, hrun⟩

end Command
end Mcs51
