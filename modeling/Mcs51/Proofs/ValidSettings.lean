import Mcs51.Settings.Load

/-!
# Settings stay valid

Settings change by switches, one at a time or many at a time from a document. A switch that is set
takes the value it was given and leaves all others alone, and a switch that is refused changes
nothing. So settings that were valid are valid after any calls, also after a document of which only
a part was accepted.

* `Switch.Named`, `Switch.Reads` — the names of a switch, and the texts of its values
* `Settings.sets_setSwitch` — what is named and read is put at its switch, or nothing is done
* `Settings.Valid.after` — a call keeps settings valid
* `Settings.valid_and_apart` — settings stay valid, and switches are apart from each other
-/

namespace Mcs51

/-! ## Switches -/

/-- The situations that have a name. -/
def Situation.all : List Situation := [.omittedOperand, .trailingOperand, .addressOffset]

/-- The ways to take a situation. -/
def Setting.all : List Setting := [.error, .warn, .ignore]

/-- What can be set by name. -/
inductive Switch where
  | bank
  | maxPasses
  | recordSize
  | language
  /-- How a situation is taken. -/
  | policy (situation : Situation)
  deriving DecidableEq

/-- What a switch may show. -/
inductive Switch.Value where
  | bank (bank : Option Int)
  | count (n : Int)
  | text (t : Text)
  | setting (setting : Setting)

namespace Switch

/-- A name without white space around it, in lower case. -/
def folded (name : Text) : Text := Text.lower (Text.trim name)

/-- The name stands for the switch. A name that is none of the first four is folded once more, to be
looked up among the situations. -/
inductive Named : Switch → Text → Prop
  | bank {name : Text} (h : folded name = Text.ofString "register-bank") : Named .bank name
  | maxPasses {name : Text} (h : folded name = Text.ofString "max-passes") : Named .maxPasses name
  | recordSize {name : Text} (h : folded name = Text.ofString "record-size") :
    Named .recordSize name
  | language {name : Text} (h : folded name = Text.ofString "language") : Named .language name
  | policy {name : Text} {situation : Situation} (hknown : situation ∈ Situation.all)
    (h : folded (folded name) = situation.name) : Named (.policy situation) name

/-- A word for no register bank. -/
def isNone (t : Text) : Bool := Text.isWord "unset" t || Text.isWord "none" t

/-- The text, without white space around it, stands for a value of the switch. -/
inductive Reads : Switch → Text → Value → Prop
  | noBank {t : Text} (h : isNone t = true) : Reads .bank t (.bank none)
  | bank {t : Text} {n : Int} (hsome : isNone t = false) (h : Text.toInt64? t = some n)
    (hleast : 0 ≤ n) (hmost : n ≤ 3) : Reads .bank t (.bank (some n))
  | maxPasses {t : Text} {n : Int} (h : Text.toInt64? t = some n) (hleast : 1 ≤ n)
    (hmost : n ≤ Text.maxInt64) : Reads .maxPasses t (.count n)
  | recordSize {t : Text} {n : Int} (h : Text.toInt64? t = some n) (hleast : 1 ≤ n)
    (hmost : n ≤ 255) : Reads .recordSize t (.count n)
  | language (t : Text) : Reads .language t (.text t)
  | policy {t : Text} {setting : Setting} (situation : Situation)
    (hknown : setting ∈ Setting.all) (h : folded t = setting.name) :
    Reads (.policy situation) t (.setting setting)

end Switch

namespace Settings

/-- What a switch shows. -/
def value (s : Settings) : Switch → Switch.Value
  | .bank => .bank s.bank
  | .maxPasses => .count s.maxPasses
  | .recordSize => .count s.recordSize
  | .language => .text s.language
  | .policy situation => .setting (s.policy situation)

/-- Lets a switch show a value. -/
def put (s : Settings) : Switch → Switch.Value → Settings
  | .bank, .bank bank => { s with bank }
  | .maxPasses, .count n => { s with maxPasses := n }
  | .recordSize, .count n => { s with recordSize := n }
  | .language, .text language => { s with language }
  | .policy situation, .setting setting =>
    { s with policy := s.policy.set situation setting }
  | _, _ => s

variable {s : Settings} {switch other : Switch} {v : Switch.Value}

theorem value_put_self {t : Text} (h : switch.Reads t v) : (s.put switch v).value switch = v := by
  cases h <;> simp [put, value, Policy.set]

theorem value_put_of_ne (hother : other ≠ switch) :
    (s.put switch v).value other = s.value other := by
  cases switch <;> cases v <;> cases other <;> simp_all [put, value, Policy.set]

end Settings

/-! ## Setting a switch -/

/-- Every name of the table leads to its number, and back. -/
def NameTable.Faithful (table : NameTable) : Prop :=
  ∀ entry ∈ table.names, table.code? (Text.ofString entry.2) = some entry.1 ∧
    table.name entry.1 = Text.ofString entry.2

theorem NameTable.code?_eq_some_iff {table : NameTable} (htable : table.Faithful) {name : Text}
    {code : Int} :
    table.code? name = some code ↔ code ∈ table.names.map Prod.fst ∧ name = table.name code := by
  constructor
  · intro h
    obtain ⟨entry, hfind, rfl⟩ := Option.map_eq_some_iff.mp h
    have hmem := List.mem_of_find?_eq_some hfind
    have hname : Text.ofString entry.2 = name := by simpa using List.find?_some hfind
    exact ⟨List.mem_map_of_mem hmem, hname.symm.trans (htable entry hmem).2.symm⟩
  · rintro ⟨hcode, rfl⟩
    obtain ⟨entry, hmem, rfl⟩ := List.mem_map.mp hcode
    rw [(htable entry hmem).2, (htable entry hmem).1]

theorem Setting.parse_ok_iff {value : Text} {setting : Setting} :
    parse value = .ok setting ↔ setting ∈ all ∧ Switch.folded value = setting.name := by
  obtain ⟨code⟩ := setting
  have hcode : parse value = .ok ⟨code⟩ ↔ table.code? (Switch.folded value) = some code := by
    unfold parse Switch.folded
    simp only
    split <;> simp_all
  have htable : table.Faithful := by unfold NameTable.Faithful; decide
  have hall : ⟨code⟩ ∈ all ↔ code ∈ table.names.map Prod.fst := by
    simp [all, table, error, warn, ignore]
  rw [hcode, NameTable.code?_eq_some_iff htable, hall]
  rfl

theorem Situation.parse_ok_iff {name : Text} {situation : Situation} :
    parse name = .ok situation ↔ situation ∈ all ∧ Switch.folded name = situation.name := by
  obtain ⟨code⟩ := situation
  have hcode : parse name = .ok ⟨code⟩ ↔ table.code? (Switch.folded name) = some code := by
    unfold parse Switch.folded
    simp only
    split <;> simp_all
  have htable : table.Faithful := by unfold NameTable.Faithful; decide
  have hall : ⟨code⟩ ∈ all ↔ code ∈ table.names.map Prod.fst := by
    simp [all, table, omittedOperand, trailingOperand, addressOffset]
  rw [hcode, NameTable.code?_eq_some_iff htable, hall]
  rfl

namespace Settings

theorem readCount_ok_iff {switch value : Text} {least most n : Int} :
    readCount switch value least most = .ok n ↔
      Text.toInt64? value = some n ∧ least ≤ n ∧ n ≤ most := by
  unfold readCount
  split
  · next m hm =>
    rw [hm]
    split <;> simp_all <;> omega
  · next hnone => simp [hnone]

theorem readBank_ok_iff {value : Text} {bank : Option Int} :
    readBank value = .ok bank ↔ Switch.Reads .bank value (.bank bank) := by
  constructor
  · intro h
    unfold readBank at h
    split at h
    · next hword =>
      cases h
      exact .noBank hword
    · next hword =>
      split at h
      · next n hn =>
        split at h
        · next hbounds =>
          cases h
          obtain ⟨hleast, hmost⟩ : 0 ≤ n ∧ n ≤ 3 := by simpa using hbounds
          exact .bank (Bool.eq_false_iff.mpr hword) hn hleast hmost
        · cases h
      · cases h
  · intro h
    unfold readBank
    rw [← Switch.isNone]
    cases h with
    | noBank hnone => rw [hnone]; rfl
    | bank hsome hn hleast hmost => simp [hsome, hn, hleast, hmost]

variable {s t : Settings} {name text : Text}

/-- What is said of a switch: it was set to a value that was read, or it was refused and nothing
was done. -/
inductive Sets (s : Settings) (name text : Text) : Loaded → Prop
  | accepted {switch : Switch} {v : Switch.Value} (hname : switch.Named name)
    (hread : switch.Reads (Text.trim text) v) : Sets s name text ⟨s.put switch v, none⟩
  | refused (e : SettingsError) : Sets s name text ⟨s, some e⟩

/-- **A switch is set to a value that was read, or refused without a change.** -/
theorem sets_setSwitch (s : Settings) (name text : Text) :
    Sets s name text (s.setSwitch name text) := by
  unfold setSwitch
  simp only [beq_iff_eq]
  rw [← Switch.folded]
  split
  · next hname =>
    split
    · exact .refused _
    · next bank hbank => exact .accepted (.bank hname) (readBank_ok_iff.mp hbank)
  split
  · next hname =>
    split
    · exact .refused _
    · next n hn =>
      obtain ⟨hread, hleast, hmost⟩ := readCount_ok_iff.mp hn
      exact .accepted (.maxPasses hname) (.maxPasses hread hleast hmost)
  split
  · next hname =>
    split
    · exact .refused _
    · next n hn =>
      obtain ⟨hread, hleast, hmost⟩ := readCount_ok_iff.mp hn
      exact .accepted (.recordSize hname) (.recordSize hread hleast hmost)
  split
  · next hname => exact .accepted (.language hname) (.language _)
  split
  · exact .refused _
  · next situation hsituation =>
    obtain ⟨hknown, hname⟩ := Situation.parse_ok_iff.mp hsituation
    split
    · exact .refused _
    · next setting hsetting =>
      obtain ⟨hvalue, htext⟩ := Setting.parse_ok_iff.mp hsetting
      exact .accepted (.policy hknown hname) (.policy situation hvalue htext)

theorem setSwitch_of_reads {switch : Switch} {v : Switch.Value} (hname : switch.Named name)
    (hread : switch.Reads (Text.trim text) v) :
    s.setSwitch name text = ⟨s.put switch v, none⟩ := by
  unfold setSwitch
  simp only [beq_iff_eq]
  rw [← Switch.folded]
  cases hname with
  | bank hname =>
    obtain ⟨bank, rfl⟩ : ∃ bank, v = .bank bank := by cases hread <;> exact ⟨_, rfl⟩
    rw [if_pos hname, readBank_ok_iff.mpr hread]
    rfl
  | maxPasses hname =>
    cases hread with
    | maxPasses hread hleast hmost =>
      rw [hname, if_neg (by decide), if_pos rfl, readCount_ok_iff.mpr ⟨hread, hleast, hmost⟩]
      rfl
  | recordSize hname =>
    cases hread with
    | recordSize hread hleast hmost =>
      have hcount : ∀ switch, readCount switch (Text.trim text) 1 maxRecordSize = .ok _ :=
        fun _ => readCount_ok_iff.mpr ⟨hread, hleast, hmost⟩
      rw [hname, if_neg (by decide), if_neg (by decide), if_pos rfl, hcount]
      rfl
  | language hname =>
    cases hread
    rw [hname, if_neg (by decide), if_neg (by decide), if_neg (by decide), if_pos rfl]
    rfl
  | @policy _ situation hknown hname =>
    cases hread with
    | policy _ hvalue htext =>
      have hother : ∀ word ∈ ["register-bank", "max-passes", "record-size", "language"],
          ¬ Switch.folded name = Text.ofString word := by
        intro word hword heq
        rw [heq] at hname
        have hapart : ∀ word ∈ ["register-bank", "max-passes", "record-size", "language"],
            ∀ situation ∈ Situation.all,
              Switch.folded (Text.ofString word) ≠ situation.name := by decide
        exact hapart word hword situation hknown hname
      rw [if_neg (hother _ (by decide)), if_neg (hother _ (by decide)),
        if_neg (hother _ (by decide)), if_neg (hother _ (by decide)),
        Situation.parse_ok_iff.mpr ⟨hknown, hname⟩]
      simp only [Setting.parse_ok_iff.mpr ⟨hvalue, htext⟩]
      rfl

/-- **A switch can be set by its name to a value that was read, and by nothing else.** -/
theorem set_ok_iff : s.set name text = .ok t ↔
    ∃ (switch : Switch) (v : Switch.Value), switch.Named name ∧ switch.Reads (Text.trim text) v ∧
      t = s.put switch v := by
  constructor
  · intro h
    have hsets := sets_setSwitch s name text
    rw [set] at h
    generalize s.setSwitch name text = next at h hsets
    cases hsets with
    | accepted hname hread => exact ⟨_, _, hname, hread, (Except.ok.inj h).symm⟩
    | refused e => cases h
  · rintro ⟨switch, v, hname, hread, rfl⟩
    rw [set, setSwitch_of_reads hname hread]
    rfl

/-- A switch that is refused changes nothing. -/
theorem settings_of_refused {e : SettingsError} (h : s.set name text = .error e) :
    (s.setSwitch name text).settings = s := by
  have hsets := sets_setSwitch s name text
  rw [set] at h
  generalize s.setSwitch name text = next at h hsets
  cases hsets with
  | accepted _ _ => cases h
  | refused e => rfl

/-! ## Calls -/

/-- Settings within the bounds that the assembler relies on. -/
structure Valid (s : Settings) : Prop where
  bank : ∀ b ∈ s.bank, 0 ≤ b ∧ b ≤ 3
  maxPasses : 1 ≤ s.maxPasses
  recordSize : 1 ≤ s.recordSize ∧ s.recordSize ≤ 255
  policy : ∀ situation, s.policy situation ∈ Setting.all

theorem valid_standard : standard.Valid where
  bank := by simp [standard]
  maxPasses := by decide
  recordSize := by decide
  policy situation := by
    simp only [standard, Policy.standard]
    split
    · decide
    · split <;> decide

theorem Valid.put (hs : s.Valid) {switch : Switch} {v : Switch.Value}
    (hread : switch.Reads text v) : (s.put switch v).Valid := by
  cases hread with
  | noBank => exact { hs with bank := by simp [Settings.put] }
  | bank hsome hn hleast hmost => exact { hs with bank := by simp [Settings.put, hleast, hmost] }
  | maxPasses hn hleast hmost => exact { hs with maxPasses := hleast }
  | recordSize hn hleast hmost => exact { hs with recordSize := ⟨hleast, hmost⟩ }
  | language => exact { hs with }
  | policy situation hvalue htext =>
    refine { hs with policy := fun asked => ?_ }
    by_cases hasked : asked = situation
    · simpa [Settings.put, Policy.set, hasked] using hvalue
    · simpa [Settings.put, Policy.set, hasked] using hs.policy asked

theorem Valid.setSwitch (hs : s.Valid) (name text : Text) :
    (s.setSwitch name text).settings.Valid := by
  have hsets := sets_setSwitch s name text
  generalize s.setSwitch name text = next at hsets
  cases hsets with
  | accepted _ hread => exact hs.put hread
  | refused e => exact hs

theorem Valid.set (hs : s.Valid) (h : s.set name text = .ok t) : t.Valid := by
  obtain ⟨switch, v, -, hread, rfl⟩ := set_ok_iff.mp h
  exact hs.put hread

/-- A document keeps settings valid, wherever in it a switch is refused. -/
theorem Valid.applyEntries : ∀ {entries : List (Text × Toml.Value)} {s : Settings}, s.Valid →
    (s.applyEntries entries).settings.Valid
  | [], _, hs => hs
  | (name, v) :: entries, s, hs => by
    unfold Settings.applyEntries
    split
    · exact hs
    · simp only
      split
      · exact hs.setSwitch _ _
      · exact Valid.applyEntries (hs.setSwitch _ _)

theorem Valid.load (hs : s.Valid) (document : Text) (table? : Text → Option Toml.Table) :
    (s.load document table?).settings.Valid := by
  unfold Settings.load applyTable
  split
  · exact hs
  · exact hs.applyEntries

/-- What settings are asked to do. -/
inductive Call where
  | set (name text : Text)
  /-- A document, with what reads it as a table. -/
  | load (document : Text) (table? : Text → Option Toml.Table)

/-- The settings after a call, whether it succeeds or not. -/
def after (s : Settings) : Call → Settings
  | .set name text => (s.setSwitch name text).settings
  | .load document table? => (s.load document table?).settings

theorem Valid.after (hs : s.Valid) (call : Call) : (s.after call).Valid := by
  cases call with
  | set name text => exact hs.setSwitch name text
  | load document table? => exact hs.load document table?

theorem Valid.foldl_after (hs : s.Valid) (calls : List Call) :
    (calls.foldl Settings.after s).Valid := by
  induction calls generalizing s with
  | nil => exact hs
  | cons call calls ih => exact ih (hs.after call)

/-- **Settings stay valid.** Whatever calls are made, and whether they succeed or not, the settings
are within their bounds. A switch that is refused changes nothing. A switch is set exactly when the
name is one of its names and the text one of its values; it then shows that value, and all other
switches show what they did. -/
theorem valid_and_apart :
    (∀ calls : List Call, (calls.foldl Settings.after standard).Valid) ∧
      ∀ (s : Settings) (name text : Text),
        (∀ e, s.set name text = .error e → s.after (.set name text) = s) ∧
        (∀ t, s.set name text = .ok t → s.after (.set name text) = t ∧
          ∃ switch : Switch, switch.Named name ∧
            switch.Reads (Text.trim text) (t.value switch) ∧
            ∀ other ≠ switch, t.value other = s.value other) ∧
        ((∃ t, s.set name text = .ok t) ↔
          ∃ (switch : Switch) (v : Switch.Value), switch.Named name ∧
            switch.Reads (Text.trim text) v) := by
  refine ⟨valid_standard.foldl_after, fun s name text => ⟨?_, ?_, ?_⟩⟩
  · intro e he
    exact settings_of_refused he
  · intro t ht
    obtain ⟨switch, v, hname, hread, rfl⟩ := set_ok_iff.mp ht
    have hafter : s.after (.set name text) = s.put switch v := by
      rw [after, setSwitch_of_reads hname hread]
    refine ⟨hafter, switch, hname, ?_, fun other hother => value_put_of_ne hother⟩
    rw [value_put_self hread]
    exact hread
  · constructor
    · rintro ⟨t, ht⟩
      obtain ⟨switch, v, hname, hread, -⟩ := set_ok_iff.mp ht
      exact ⟨switch, v, hname, hread⟩
    · rintro ⟨switch, v, hname, hread⟩
      exact ⟨_, set_ok_iff.mpr ⟨switch, v, hname, hread, rfl⟩⟩

/-- The register bank is set, no passes at all are refused, and a document sets the language before
it is given up at its record size. -/
theorem valid_and_apart_refused :
    ([Call.set " Register-Bank" "2", .set "max-passes" "0",
      .load [] fun _ => some [("language", .text "de"), ("record-size", .integer 256)]].foldl
        Settings.after standard).Valid ∧
      standard.after (.set "max-passes" "0") = standard ∧
      ∃ switch : Switch, switch.Named " Register-Bank" ∧
        ∀ other ≠ switch,
          (standard.after (.set " Register-Bank" "2")).value other = standard.value other := by
  have hrefused : standard.set "max-passes" "0" = .error (.badValue "max-passes" "0") := rfl
  have hset : standard.set " Register-Bank" "2" = .ok { standard with bank := some 2 } := rfl
  obtain ⟨hafter, switch, hname, -, hothers⟩ :=
    (valid_and_apart.2 standard " Register-Bank" "2").2.1 _ hset
  rw [hafter]
  exact ⟨valid_and_apart.1 _, (valid_and_apart.2 standard _ _).1 _ hrefused, switch, hname, hothers⟩

end Settings

end Mcs51
