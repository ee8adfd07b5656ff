import Mcs51.Proofs.LineUnits

/-!
# The fate of labels

A label waits for the first unit after it and is forgotten if an `org` comes before. Its name is
taken as long as it is not forgotten, and a second label of the name is refused. What becomes of a
label is thus said by the tokens before it and the tokens after it, without regard to how the tokens
are walked through.

* `Wait.after` — what becomes of a label that waits, by the tokens after it
* `Live` — the name of a label is taken, by the tokens before it
* `LabelView.Records.add` — the labels of a draft are recorded in this sense, token by token
* `records_segment` — so are the labels of the units, and what is said about labels
-/

namespace Mcs51

/-! ## Waiting for a unit -/

/-- The token opens a unit. -/
def Token.opensUnit : Token → Bool
  | .mnemonic _ => true
  | .directive d => d.kind.isData
  | .operand _ | .label _ => false

/-- The address of an `org`. -/
def Token.org? : Token → Option Int
  | .directive d => if d.kind == .org then some d.number else none
  | .mnemonic _ | .operand _ | .label _ => none

/-- How the wait of a label for a unit goes. -/
inductive Wait where
  | waiting
  | attached
  | forgotten
  deriving DecidableEq

namespace Wait

/-- A unit ends the wait of a label, and so does an `org`. -/
def next (w : Wait) (t : Token) : Wait :=
  match w with
  | .waiting =>
    if t.opensUnit then .attached
    else if t.org?.isSome then .forgotten
    else .waiting
  | .attached => .attached
  | .forgotten => .forgotten

/-- The wait of a label that tokens follow. -/
def after (tokens : List Token) : Wait := tokens.foldl next .waiting

variable {w : Wait} {a b tokens : List Token} {t : Token} {l : Label}

theorem after_snoc : after (tokens ++ [t]) = (after tokens).next t := List.foldl_append

theorem next_of_ne_waiting (h : w ≠ .waiting) : w.next t = w := by
  cases w with
  | waiting => exact absurd rfl h
  | attached => rfl
  | forgotten => rfl

theorem next_unit (h : t.opensUnit = true) : w.next t = if w = .waiting then .attached else w := by
  cases w <;> simp [next, h]

theorem next_org {n : Int} (hunit : t.opensUnit = false) (h : t.org? = some n) :
    w.next t = if w = .waiting then .forgotten else w := by
  cases w <;> simp [next, hunit, h]

/-- A unit and an `org` end the wait, in one way or the other. -/
theorem next_ne_waiting (h : t.opensUnit = true ∨ t.org?.isSome = true) : w.next t ≠ .waiting := by
  cases w with
  | waiting => rcases h with h | h <;> cases hunit : t.opensUnit <;> simp_all [next]
  | attached => simp [next]
  | forgotten => simp [next]

theorem next_other (hunit : t.opensUnit = false) (h : t.org? = none) : w.next t = w := by
  cases w <;> simp [next, hunit, h]

@[simp] theorem next_label : w.next (.label l) = w := by cases w <;> rfl

theorem foldl_next (h : w ≠ .waiting) : tokens.foldl next w = w := by
  induction tokens with
  | nil => rfl
  | cons t tokens ih => rw [List.foldl_cons, next_of_ne_waiting h, ih]

/-- A wait that is over stays over. -/
theorem after_append : after (a ++ b) = if after a = .waiting then after b else after a := by
  rw [after, List.foldl_append, ← after]
  split
  · next h => rw [h, after]
  · next h => exact foldl_next h

theorem after_label : after (.label l :: a) = after a := rfl

theorem not_mem_of_waiting (h : after tokens = .waiting) :
    ∀ t ∈ tokens, t.opensUnit = false ∧ t.org? = none := by
  induction tokens with
  | nil => simp
  | cons t tokens ih =>
    have hsplit : after ([t] ++ tokens) = .waiting := h
    rw [after_append] at hsplit
    split at hsplit
    · next hfirst =>
      intro s hs
      rcases List.mem_cons.mp hs with rfl | hs
      · revert hfirst
        simp only [after, List.foldl_cons, List.foldl_nil, next]
        cases s.opensUnit <;> cases hs : s.org? <;> simp
      · exact ih hsplit s hs
    · next hfirst => exact absurd hsplit hfirst

theorem exists_opensUnit (h : after tokens = .attached) : ∃ t ∈ tokens, t.opensUnit = true := by
  induction tokens with
  | nil => cases h
  | cons t tokens ih =>
    cases hunit : t.opensUnit with
    | true => exact ⟨t, List.mem_cons_self, hunit⟩
    | false =>
      have hsplit : after ([t] ++ tokens) = .attached := h
      rw [after_append] at hsplit
      split at hsplit
      · obtain ⟨s, hs, hopens⟩ := ih hsplit
        exact ⟨s, List.mem_cons_of_mem t hs, hopens⟩
      · have hfirst : (if t.org?.isSome then Wait.forgotten else .waiting) = .attached := by
          simpa only [after, List.foldl_cons, List.foldl_nil, next, hunit, Bool.false_eq_true,
            if_false] using hsplit
        split at hfirst <;> cases hfirst

end Wait

/-! ## Labels and what stands around them -/

/-- Some label of the tokens has the property, which may speak of the tokens before it and of its
wait. -/
def SomeLabel (P : List Token → Label → Wait → Prop) (tokens : List Token) : Prop :=
  ∃ before l after, tokens = before ++ .label l :: after ∧ P before l (Wait.after after)

/-- The name is taken: a label before has it that is not forgotten. Whether that label was refused
does not matter, since the name was taken then and is as long as for that label. -/
def Live (tokens : List Token) (name : Text) : Prop :=
  SomeLabel (fun _ l w => l.name = name ∧ w ≠ .forgotten) tokens

section Splits

variable {P Q : List Token → Label → Wait → Prop} {tokens : List Token} {t : Token}

theorem SomeLabel.mono (h : SomeLabel P tokens) (himp : ∀ before l w, P before l w → Q before l w) :
    SomeLabel Q tokens := by
  obtain ⟨before, l, after, hsplit, hP⟩ := h
  exact ⟨before, l, after, hsplit, himp _ _ _ hP⟩

theorem someLabel_congr (hiff : ∀ before l w, P before l w ↔ Q before l w) :
    SomeLabel P tokens ↔ SomeLabel Q tokens :=
  ⟨fun h => h.mono fun b l w => (hiff b l w).mp, fun h => h.mono fun b l w => (hiff b l w).mpr⟩

@[simp] theorem not_someLabel_nil : ¬ SomeLabel P [] := by
  rintro ⟨before, l, after, hsplit, -⟩
  cases before <;> cases hsplit

/-- A token adds to the wait of the labels before it, and may be a label itself. -/
theorem someLabel_snoc : SomeLabel P (tokens ++ [t]) ↔
    SomeLabel (fun before l w => P before l (w.next t)) tokens ∨
      ∃ l, t = .label l ∧ P tokens l .waiting := by
  constructor
  · rintro ⟨before, l, after, hsplit, hP⟩
    rcases List.eq_nil_or_concat after with rfl | ⟨after, last, rfl⟩
    · obtain ⟨rfl, hlast⟩ := List.append_inj' hsplit rfl
      exact .inr ⟨l, List.singleton_inj.mp hlast, hP⟩
    · have hsplit' : tokens ++ [t] = (before ++ .label l :: after) ++ [last] := by
        simpa using hsplit
      obtain ⟨rfl, hlast⟩ := List.append_inj' hsplit' rfl
      rw [List.singleton_inj.mp hlast]
      rw [List.concat_eq_append, Wait.after_snoc] at hP
      exact .inl ⟨before, l, after, rfl, hP⟩
  · rintro (⟨before, l, after, rfl, hP⟩ | ⟨l, rfl, hP⟩)
    · refine ⟨before, l, after ++ [t], by simp, ?_⟩
      rwa [Wait.after_snoc]
    · exact ⟨tokens, l, [], rfl, hP⟩

theorem someLabel_or : SomeLabel (fun before l w => P before l w ∨ Q before l w) tokens ↔
    SomeLabel P tokens ∨ SomeLabel Q tokens := by
  constructor
  · rintro ⟨before, l, after, hsplit, hP | hQ⟩
    · exact .inl ⟨before, l, after, hsplit, hP⟩
    · exact .inr ⟨before, l, after, hsplit, hQ⟩
  · rintro (h | h)
    · exact h.mono fun _ _ _ => .inl
    · exact h.mono fun _ _ _ => .inr

theorem someLabel_label {l : Label} :
    SomeLabel P (tokens ++ [.label l]) ↔ SomeLabel P tokens ∨ P tokens l .waiting := by
  rw [someLabel_snoc]
  simp

theorem live_label {l : Label} {name : Text} :
    Live (tokens ++ [.label l]) name ↔ Live tokens name ∨ l.name = name := by
  rw [Live, someLabel_label, ← Live]
  simp

theorem someLabel_next (hlabel : ∀ l, t ≠ .label l) : SomeLabel P (tokens ++ [t]) ↔
    SomeLabel (fun before l w => P before l (w.next t)) tokens := by
  rw [someLabel_snoc, or_iff_left]
  rintro ⟨l, rfl, -⟩
  exact hlabel l rfl

/-- Two places in a list are the same, or one is before the other. -/
theorem split_cases {α : Type} {x y : α} {b a b' a' : List α} (h : b ++ x :: a = b' ++ y :: a') :
    (b = b' ∧ x = y ∧ a = a') ∨ (∃ mid, b' = b ++ x :: mid ∧ a = mid ++ y :: a') ∨
      ∃ mid, b = b' ++ y :: mid ∧ a' = mid ++ x :: a := by
  rcases List.append_eq_append_iff.mp h with ⟨mid, rfl, hmid⟩ | ⟨mid, rfl, hmid⟩
  · cases mid with
    | nil =>
      obtain ⟨rfl, rfl⟩ := List.cons.inj hmid
      exact .inl ⟨(List.append_nil b).symm, rfl, rfl⟩
    | cons z mid =>
      obtain ⟨rfl, rfl⟩ := List.cons.inj hmid
      exact .inr (.inl ⟨mid, rfl, rfl⟩)
  · cases mid with
    | nil =>
      obtain ⟨rfl, rfl⟩ := List.cons.inj hmid
      exact .inl ⟨List.append_nil b', rfl, rfl⟩
    | cons z mid =>
      obtain ⟨rfl, rfl⟩ := List.cons.inj hmid
      exact .inr (.inr ⟨mid, rfl, rfl⟩)

/-- **A name that is taken is taken by a label that was not refused.** -/
theorem Live.exists_accepted {name : Text} (h : Live tokens name) :
    SomeLabel (fun before l w => ¬ Live before l.name ∧ l.name = name ∧ w ≠ .forgotten) tokens := by
  -- a label that was refused leads to an earlier one
  induction hlen : tokens.length using Nat.strongRecOn generalizing tokens with
  | ind n ih =>
    obtain ⟨before, l, after, rfl, hname, hwait⟩ := h
    by_cases hlive : Live before l.name
    · have hshorter : before.length < n := by
        rw [← hlen, List.length_append, List.length_cons]
        omega
      rw [hname] at hlive
      obtain ⟨before', l', mid, rfl, hfree, hname', hmid⟩ := ih _ hshorter hlive rfl
      refine ⟨before', l', mid ++ .label l :: after, by simp, hfree, hname', ?_⟩
      rw [Wait.after_append]
      split
      · exact hwait
      · exact hmid
    · exact ⟨before, l, after, rfl, hlive, hname, hwait⟩

end Splits

/-! ## The labels of a draft -/

/-- The origin of the segment that the tokens end in. -/
def originAt (tokens : List Token) : UInt32 :=
  ((tokens.filterMap Token.org?).getLast?.map toWord).getD 0

theorem originAt_snoc_org {tokens : List Token} {t : Token} {n : Int} (h : t.org? = some n) :
    originAt (tokens ++ [t]) = toWord n := by
  simp [originAt, List.filterMap_append, h]

theorem originAt_append {tokens after : List Token} (h : ∀ t ∈ after, t.org? = none) :
    originAt (tokens ++ after) = originAt tokens := by
  have hnone : after.filterMap Token.org? = [] := List.filterMap_eq_nil_iff.mpr h
  rw [originAt, List.filterMap_append, hnone, List.append_nil, originAt]

/-- What is said about a label of a name that is taken. -/
def Label.duplicate (l : Label) : Finding := .error (.duplicateLabel l.name) l.text l.position

/-- What is said about a label that is forgotten. -/
def Label.orphaned (l : Label) : Finding := .error (.orphanLabel l.name) l.text l.position

/-- The label is refused or forgotten. -/
def Complaint.isAboutLabel : Complaint → Bool
  | .duplicateLabel _ | .orphanLabel _ => true
  | _ => false

/-- What a draft knows about labels. -/
structure LabelView where
  live : List Text := []
  pending : List Label := []
  origin : UInt32 := 0
  /-- The labels of each unit, in source order. -/
  units : List (List Label) := []
  findings : List Finding := []

/-- Forgets the labels that wait. -/
def LabelView.orphan (v : LabelView) : LabelView :=
  { v with
    pending := []
    live := v.live.filter fun name => !v.pending.any fun l => l.name == name
    findings := v.pending.map Label.orphaned ++ v.findings }

/-- What a token does to labels. -/
def LabelView.add (v : LabelView) (t : Token) : LabelView :=
  match t with
  | .label l =>
    if v.live.contains l.name then { v with findings := l.duplicate :: v.findings }
    else { v with live := l.name :: v.live, pending := l :: v.pending }
  | t =>
    if t.opensUnit then
      { v with
        pending := []
        units := v.units ++ [v.pending.reverse.map fun l =>
          (l.setOrigin v.origin).toOption.getD l] }
    else match t.org? with
      | some n => { v.orphan with origin := toWord n }
      | none => v

namespace LabelView

variable {v : LabelView} {t : Token}

theorem add_unit (h : t.opensUnit = true) : v.add t =
    { v with
      pending := []
      units := v.units ++ [v.pending.reverse.map fun l =>
        (l.setOrigin v.origin).toOption.getD l] } := by
  cases t with
  | label l => cases h
  | operand op => cases h
  | mnemonic m => rfl
  | directive dir => simp only [add, h, if_true]

theorem add_org {n : Int} (h : t.org? = some n) :
    v.add t = { v.orphan with origin := toWord n } := by
  cases t with
  | label l => cases h
  | operand op => cases h
  | mnemonic m => cases h
  | directive dir =>
    have hkind : dir.kind = .org := by
      simp only [Token.org?] at h
      split at h
      · next horg => exact beq_iff_eq.mp horg
      · cases h
    have hunit : (Token.directive dir).opensUnit = false := by
      simp [Token.opensUnit, hkind, DirectiveKind.isData]
    simp only [add, hunit, h, Bool.false_eq_true, if_false]

theorem add_other (hlabel : ∀ l, t ≠ .label l) (hunit : t.opensUnit = false)
    (horg : t.org? = none) : v.add t = v := by
  cases t with
  | label l => exact absurd rfl (hlabel l)
  | operand op => rfl
  | mnemonic m => cases hunit
  | directive dir => simp only [add, hunit, horg, Bool.false_eq_true, if_false]

end LabelView

namespace Draft

def labelView (d : Draft) : LabelView where
  live := d.live
  pending := d.pending
  origin := d.origin
  units := d.units.reverse.map CodeUnit.labels
  findings := d.findings.filter fun f => f.complaint.isAboutLabel

theorem labelView_note {f : Finding} (h : f.complaint.isAboutLabel = false) (d : Draft) :
    (d.note f).labelView = d.labelView := by
  simp [labelView, note, h]

theorem labelView_orphan (d : Draft) : d.orphan.labelView = d.labelView.orphan := by
  have hfindings : (d.pending.map fun l =>
      Finding.error (.orphanLabel l.name) l.text l.position).filter
        (fun f => f.complaint.isAboutLabel) = d.pending.map Label.orphaned := by
    rw [List.filter_eq_self.mpr]
    · rfl
    · intro f hf
      obtain ⟨l, _, rfl⟩ := List.mem_map.mp hf
      rfl
  simp [labelView, orphan, LabelView.orphan, List.filter_append, hfindings]

theorem labelView_openUnit (d : Draft) (content : Content) (takesOperands : Bool) :
    (d.openUnit content takesOperands).labelView
      = { d.labelView with
          pending := []
          units := d.labelView.units ++ [d.pending.reverse.map fun l =>
            (l.setOrigin d.origin).toOption.getD l] } := by
  simp [labelView, openUnit]

theorem labelView_addOperand (d : Draft) (op : Operand) :
    (d.addOperand op).labelView = d.labelView := by
  unfold addOperand
  split
  · next u units _ hunits =>
    split
    · simp [labelView, hunits]
    · exact labelView_note rfl d
  · exact labelView_note rfl d

theorem labelView_addDirective (d : Draft) (dir : Directive) :
    (d.addDirective dir).labelView = d.labelView.add (.directive dir) := by
  have hclosed : Draft.labelView { d with takesOperands := false } = d.labelView := rfl
  unfold addDirective
  by_cases horg : dir.kind = .org
  · have horg? : (Token.directive dir).org? = some dir.number := by simp [Token.org?, horg]
    rw [LabelView.add_org horg?, if_pos (beq_iff_eq.mpr horg), ← labelView_orphan]
    rfl
  · rw [if_neg (by simpa using horg)]
    have horg? : (Token.directive dir).org? = none := by simp [Token.org?, horg]
    split
    · next hdata =>
      rw [LabelView.add_unit (t := .directive dir) hdata, labelView_openUnit, hclosed]
      rfl
    · next hdata =>
      have hunit : (Token.directive dir).opensUnit = false := Bool.eq_false_iff.mpr hdata
      rw [LabelView.add_other (by simp) hunit horg?, hclosed]

/-- **A draft knows about labels what its tokens do to them.** -/
theorem labelView_add (d : Draft) (t : Token) : (d.add t).labelView = d.labelView.add t := by
  cases t with
  | mnemonic m =>
    simp only [add]
    split
    · rw [labelView_openUnit, labelView_note rfl]
      rfl
    · exact labelView_openUnit d _ _
  | operand op => exact labelView_addOperand d op
  | label l =>
    simp only [add, LabelView.add]
    split
    · next hlive => exact (if_pos hlive).symm
    · next hlive => exact (if_neg hlive).symm
  | directive dir => exact labelView_addDirective d dir

theorem labelView_addAll (tokens : List Token) (d : Draft) :
    (tokens.foldl add d).labelView = tokens.foldl LabelView.add d.labelView := by
  induction tokens generalizing d with
  | nil => rfl
  | cons t tokens ih => rw [List.foldl_cons, List.foldl_cons, ih, labelView_add]

end Draft

/-! ## What tokens record -/

section Around

variable {tokens before after : List Token} {l : Label}

theorem countP_split (hsplit : tokens = before ++ .label l :: after) :
    tokens.countP Token.opensUnit
      = before.countP Token.opensUnit + after.countP Token.opensUnit := by
  rw [hsplit, List.countP_append, List.countP_cons_of_neg (by simp [Token.opensUnit])]

theorem countP_of_waiting (hsplit : tokens = before ++ .label l :: after)
    (h : Wait.after after = .waiting) :
    before.countP Token.opensUnit = tokens.countP Token.opensUnit := by
  have hzero : after.countP Token.opensUnit = 0 := by
    rw [List.countP_eq_zero]
    intro t ht
    simp [(Wait.not_mem_of_waiting h t ht).1]
  rw [countP_split hsplit, hzero, Nat.add_zero]

theorem originAt_of_waiting (hsplit : tokens = before ++ .label l :: after)
    (h : Wait.after after = .waiting) : originAt before = originAt tokens := by
  rw [hsplit]
  refine (originAt_append fun t ht => ?_).symm
  rcases List.mem_cons.mp ht with rfl | ht
  · rfl
  · exact (Wait.not_mem_of_waiting h t ht).2

theorem countP_of_attached (hsplit : tokens = before ++ .label l :: after)
    (h : Wait.after after = .attached) :
    before.countP Token.opensUnit < tokens.countP Token.opensUnit := by
  have hpos : 0 < after.countP Token.opensUnit :=
    List.countP_pos_iff.mpr (Wait.exists_opensUnit h)
  rw [countP_split hsplit]
  omega

end Around

/-- A label becomes the label `m` of unit `i`, with the origin of its segment. -/
structure Attaches (i : Nat) (m : Label) (before : List Token) (l : Label) (w : Wait) :
    Prop where
  free : ¬ Live before l.name
  wait : w = .attached
  index : before.countP Token.opensUnit = i
  label : m = { l with origin? := some (originAt before) }

namespace LabelView

/-- The view holds what the tokens say about labels. -/
structure Records (v : LabelView) (tokens : List Token) : Prop where
  live : ∀ name, name ∈ v.live ↔ Live tokens name
  pending : ∀ l, l ∈ v.pending ↔
    SomeLabel (fun before l' w => ¬ Live before l'.name ∧ w = .waiting ∧ l' = l) tokens
  origin : v.origin = originAt tokens
  length : v.units.length = tokens.countP Token.opensUnit
  units : ∀ i labels, v.units[i]? = some labels →
    ∀ m, m ∈ labels ↔ SomeLabel (Attaches i m) tokens
  findings : ∀ f, f ∈ v.findings ↔
    SomeLabel (fun before l w => (Live before l.name ∧ f = l.duplicate) ∨
      (¬ Live before l.name ∧ w = .forgotten ∧ f = l.orphaned)) tokens

variable {v : LabelView} {tokens : List Token} {t : Token}

theorem records_empty : Records {} [] where
  live := by simp [Live]
  pending := by simp
  origin := rfl
  length := rfl
  units := by simp
  findings := by simp

theorem Records.other (h : v.Records tokens) (hlabel : ∀ l, t ≠ .label l)
    (hunit : t.opensUnit = false) (horg : t.org? = none) : v.Records (tokens ++ [t]) := by
  have hsame : ∀ P, SomeLabel P (tokens ++ [t]) ↔ SomeLabel P tokens := by
    intro P
    rw [someLabel_next hlabel]
    exact someLabel_congr fun before l w => by rw [Wait.next_other hunit horg]
  constructor
  · exact fun name => (h.live name).trans (hsame _).symm
  · exact fun l => (h.pending l).trans (hsame _).symm
  · rw [originAt_append (by simpa using horg), h.origin]
  · rw [List.countP_append, List.countP_singleton, hunit, h.length]
    rfl
  · exact fun i labels hi m => (h.units i labels hi m).trans (hsame _).symm
  · exact fun f => (h.findings f).trans (hsame _).symm

theorem originAt_label {l : Label} : originAt (tokens ++ [.label l]) = originAt tokens :=
  originAt_append (by simp [Token.org?])

/-- A label that is declared goes to none of the units before it. -/
theorem Records.units_label (h : v.Records tokens) {l : Label} {i : Nat} {labels : List Label}
    (hi : v.units[i]? = some labels) (m : Label) :
    m ∈ labels ↔ SomeLabel (Attaches i m) (tokens ++ [.label l]) := by
  rw [someLabel_label, h.units i labels hi m, or_iff_left]
  intro hattaches
  cases hattaches.wait

/-- A label of a name that is taken is reported, and nothing else changes. -/
theorem Records.refuse (h : v.Records tokens) {l : Label} (hlive : Live tokens l.name) :
    Records { v with findings := l.duplicate :: v.findings } (tokens ++ [.label l]) := by
  constructor
  · intro name
    rw [h.live name, live_label, or_iff_left_of_imp]
    rintro rfl
    exact hlive
  · intro m
    rw [someLabel_label, h.pending m, or_iff_left]
    rintro ⟨hfree, -⟩
    exact hfree hlive
  · exact h.origin.trans originAt_label.symm
  · rw [List.countP_append]
    exact h.length
  · exact fun i labels hi m => h.units_label hi m
  · intro f
    rw [someLabel_label, List.mem_cons, h.findings f, or_comm]
    simp [hlive]

/-- A label of a name that is free takes the name and waits. -/
theorem Records.accept (h : v.Records tokens) {l : Label} (hfree : ¬ Live tokens l.name) :
    Records { v with live := l.name :: v.live, pending := l :: v.pending }
      (tokens ++ [.label l]) := by
  constructor
  · intro name
    rw [List.mem_cons, h.live name, live_label, or_comm, eq_comm]
  · intro m
    rw [someLabel_label, List.mem_cons, h.pending m, or_comm]
    simp [hfree, eq_comm]
  · exact h.origin.trans originAt_label.symm
  · rw [List.countP_append]
    exact h.length
  · exact fun i labels hi m => h.units_label hi m
  · intro f
    rw [someLabel_label, h.findings f, or_iff_left]
    rintro (⟨hlive, -⟩ | ⟨-, hwait, -⟩)
    · exact hfree hlive
    · cases hwait

theorem org?_of_opensUnit (h : t.opensUnit = true) : t.org? = none := by
  cases t with
  | directive dir =>
    have hne : dir.kind ≠ .org := by
      intro hkind
      simp [Token.opensUnit, hkind, DirectiveKind.isData] at h
    simp [Token.org?, hne]
  | _ => rfl

/-- No label waits after a token that ends the wait. -/
theorem not_pending (hlabel : ∀ l, t ≠ .label l) (hends : t.opensUnit = true ∨ t.org?.isSome = true)
    (l : Label) : l ∈ ([] : List Label) ↔
      SomeLabel (fun before l' w => ¬ Live before l'.name ∧ w = .waiting ∧ l' = l)
        (tokens ++ [t]) := by
  rw [someLabel_next hlabel]
  refine ⟨by simp, ?_⟩
  rintro ⟨before, l', after, -, -, hwait, -⟩
  exact absurd hwait (Wait.next_ne_waiting hends)

/-- A unit that is opened leaves the labels of the units before it alone. -/
theorem Records.labels_kept (h : v.Records tokens) {i : Nat} (hlt : i < v.units.length)
    (m : Label) : SomeLabel (fun before l w => Attaches i m before l (w.next t)) tokens ↔
      SomeLabel (Attaches i m) tokens := by
  constructor
  · intro hnew
    obtain ⟨before, l, after, hsplit, hattaches⟩ := hnew
    refine ⟨before, l, after, hsplit, { hattaches with wait := ?_ }⟩
    -- a label that waits goes to a later unit
    have hover : Wait.after after ≠ .waiting := by
      intro hwait
      have hlast := countP_of_waiting hsplit hwait
      rw [hattaches.index, ← h.length] at hlast
      omega
    rw [← Wait.next_of_ne_waiting hover]
    exact hattaches.wait
  · exact fun hold => hold.mono fun before l w hattaches =>
      { hattaches with wait := by rw [hattaches.wait]; rfl }

/-- A unit that is opened takes the labels that wait. -/
theorem Records.labels_new (h : v.Records tokens) (hfresh : ∀ l ∈ v.pending, l.origin? = none)
    (hunit : t.opensUnit = true) (m : Label) :
    (m ∈ v.pending.reverse.map fun l => (l.setOrigin v.origin).toOption.getD l) ↔
      SomeLabel (fun before l w => Attaches v.units.length m before l (w.next t)) tokens := by
  have hset : ∀ l ∈ v.pending,
      (l.setOrigin v.origin).toOption.getD l = { l with origin? := some v.origin } := by
    intro l hl
    simp [Label.setOrigin, hfresh l hl, Except.toOption]
  rw [List.mem_map]
  constructor
  · rintro ⟨l, hl, rfl⟩
    have hl := List.mem_reverse.mp hl
    obtain ⟨before, l', after, hsplit, hfree, hwait, rfl⟩ := (h.pending l).mp hl
    refine ⟨before, l', after, hsplit, hfree, ?_, ?_, ?_⟩
    · rw [hwait, Wait.next_unit hunit]
      rfl
    · exact (countP_of_waiting hsplit hwait).trans h.length.symm
    · rw [hset l' hl, h.origin, originAt_of_waiting hsplit hwait]
  · intro hnew
    obtain ⟨before, l, after, hsplit, hattaches⟩ := hnew
    have hwait : Wait.after after = .waiting := by
      have hnext := hattaches.wait
      rw [Wait.next_unit hunit] at hnext
      split at hnext
      · next hwait => exact hwait
      · have hlt := countP_of_attached hsplit hnext
        rw [hattaches.index, h.length] at hlt
        omega
    have hl : l ∈ v.pending :=
      (h.pending l).mpr ⟨before, l, after, hsplit, hattaches.free, hwait, rfl⟩
    refine ⟨l, List.mem_reverse.mpr hl, ?_⟩
    rw [hset l hl, hattaches.label, h.origin, originAt_of_waiting hsplit hwait]

theorem Records.openUnit (h : v.Records tokens) (hfresh : ∀ l ∈ v.pending, l.origin? = none)
    (hunit : t.opensUnit = true) :
    Records { v with
      pending := []
      units := v.units ++ [v.pending.reverse.map fun l =>
        (l.setOrigin v.origin).toOption.getD l] } (tokens ++ [t]) := by
  have hlabel : ∀ l, t ≠ .label l := by
    rintro l rfl
    cases hunit
  constructor
  · intro name
    rw [h.live name, Live, Live, someLabel_next hlabel]
    refine someLabel_congr fun before l w => ?_
    rw [Wait.next_unit hunit]
    cases w <;> simp
  · exact not_pending hlabel (.inl hunit)
  · rw [originAt_append (by simpa using org?_of_opensUnit hunit)]
    exact h.origin
  · rw [List.countP_append, List.countP_singleton, hunit, List.length_append, h.length]
    rfl
  · intro i labels hi m
    rw [someLabel_next hlabel]
    rw [List.getElem?_append] at hi
    split at hi
    · next hlt => exact (h.units i labels hi m).trans (h.labels_kept hlt m).symm
    · next hge =>
      obtain ⟨hlt, hentry⟩ := List.getElem?_eq_some_iff.mp hi
      obtain rfl : i = v.units.length := by
        rw [List.length_singleton] at hlt
        omega
      simp only [Nat.sub_self, List.getElem_cons_zero] at hentry
      rw [← hentry]
      exact h.labels_new hfresh hunit m
  · intro f
    rw [someLabel_next hlabel, h.findings f]
    refine someLabel_congr fun before l w => ?_
    rw [Wait.next_unit hunit]
    cases w <;> simp

/-- A name stays taken over an `org` if no label of the name waits. -/
theorem live_org {n : Int} (h : v.Records tokens) (horg : t.org? = some n)
    (hunit : t.opensUnit = false) (hlabel : ∀ l, t ≠ .label l) (name : Text) :
    Live (tokens ++ [t]) name ↔ name ∈ v.live ∧ ∀ l ∈ v.pending, l.name ≠ name := by
  have hattached : Live (tokens ++ [t]) name ↔
      SomeLabel (fun _ l w => l.name = name ∧ w = .attached) tokens := by
    rw [Live, someLabel_next hlabel]
    refine someLabel_congr fun before l w => ?_
    rw [Wait.next_org hunit horg]
    cases w <;> simp
  rw [hattached, h.live name]
  constructor
  · rintro ⟨before, l, after, hsplit, hname, hwait⟩
    refine ⟨⟨before, l, after, hsplit, hname, by rw [hwait]; simp⟩, ?_⟩
    intro l' hl' hname'
    obtain ⟨before', l', after', hsplit', hfree, hwait', rfl⟩ := (h.pending l').mp hl'
    rw [hsplit] at hsplit'
    rcases split_cases hsplit' with ⟨-, -, rfl⟩ | ⟨mid, rfl, rfl⟩ | ⟨mid, rfl, rfl⟩
    · rw [hwait] at hwait'
      cases hwait'
    · -- the label is attached before the one that waits, so the name was taken
      rw [Wait.after_append, Wait.after_label, hwait'] at hwait
      split at hwait
      · cases hwait
      · refine hfree ⟨before, l, mid, rfl, hname.trans hname'.symm, ?_⟩
        rw [hwait]
        simp
    · rw [Wait.after_append, Wait.after_label, hwait] at hwait'
      split at hwait'
      · cases hwait'
      · next hne => exact hne hwait'
  · rintro ⟨hlive, hnone⟩
    obtain ⟨before, l, after, hsplit, hfree, hname, hwait⟩ := hlive.exists_accepted
    refine ⟨before, l, after, hsplit, hname, ?_⟩
    cases hover : Wait.after after with
    | waiting =>
      have hl : l ∈ v.pending := (h.pending l).mpr ⟨before, l, after, hsplit, hfree, hover, rfl⟩
      exact absurd hname (hnone l hl)
    | attached => rfl
    | forgotten => exact absurd hover hwait

/-- An `org` forgets the labels that wait, so that their names are free again. -/
theorem Records.startSegment {n : Int} (h : v.Records tokens) (horg : t.org? = some n) :
    Records { v.orphan with origin := toWord n } (tokens ++ [t]) := by
  have hlabel : ∀ l, t ≠ .label l := by
    rintro l rfl
    cases horg
  have hunit : t.opensUnit = false := by
    cases hopens : t.opensUnit with
    | false => rfl
    | true => rw [org?_of_opensUnit hopens] at horg; cases horg
  constructor
  · intro name
    rw [live_org h horg hunit hlabel]
    simp [LabelView.orphan]
  · exact not_pending hlabel (.inr (Option.isSome_of_eq_some horg))
  · exact (originAt_snoc_org horg).symm
  · rw [List.countP_append, List.countP_singleton, hunit]
    exact h.length
  · intro i labels hi m
    rw [someLabel_next hlabel]
    refine (h.units i labels hi m).trans (someLabel_congr fun before l w => ?_)
    have hwait : w.next t = .attached ↔ w = .attached := by
      rw [Wait.next_org hunit horg]
      cases w <;> simp
    exact ⟨fun ha => { ha with wait := hwait.mpr ha.wait },
      fun ha => { ha with wait := hwait.mp ha.wait }⟩
  · intro f
    have hnext : ∀ (before : List Token) (l : Label) (w : Wait),
        ((Live before l.name ∧ f = l.duplicate) ∨
          (¬ Live before l.name ∧ w.next t = .forgotten ∧ f = l.orphaned)) ↔
        (¬ Live before l.name ∧ w = .waiting ∧ f = l.orphaned) ∨
          ((Live before l.name ∧ f = l.duplicate) ∨
            (¬ Live before l.name ∧ w = .forgotten ∧ f = l.orphaned)) := by
      intro before l w
      rw [Wait.next_org hunit horg]
      cases w <;> simp [or_comm]
    rw [someLabel_next hlabel, someLabel_congr hnext, someLabel_or, ← h.findings f]
    refine List.mem_append.trans (or_congr_left ?_)
    rw [List.mem_map]
    constructor
    · rintro ⟨l, hl, rfl⟩
      obtain ⟨before, l', after, hsplit, hfree, hwait, rfl⟩ := (h.pending l).mp hl
      exact ⟨before, l', after, hsplit, hfree, hwait, rfl⟩
    · rintro ⟨before, l, after, hsplit, hfree, hwait, rfl⟩
      exact ⟨l, (h.pending l).mpr ⟨before, l, after, hsplit, hfree, hwait, rfl⟩, rfl⟩

theorem Records.fresh_pending (h : v.Records tokens) (hfresh : ∀ t ∈ tokens, t.Fresh) :
    ∀ l ∈ v.pending, l.origin? = none := by
  intro l hl
  obtain ⟨before, l', after, rfl, -, -, rfl⟩ := (h.pending l).mp hl
  exact (hfresh (.label l') (by simp)).1

/-- **A token is recorded** with all that it does to labels. -/
theorem Records.add (h : v.Records tokens) (hfresh : ∀ t ∈ tokens, t.Fresh) (t : Token) :
    (v.add t).Records (tokens ++ [t]) := by
  cases hunit : t.opensUnit with
  | true =>
    rw [add_unit hunit]
    exact h.openUnit (h.fresh_pending hfresh) hunit
  | false =>
    cases horg : t.org? with
    | some n =>
      rw [add_org horg]
      exact h.startSegment horg
    | none =>
      by_cases hlabel : ∃ l, t = .label l
      · obtain ⟨l, rfl⟩ := hlabel
        have hlive : v.live.contains l.name = true ↔ Live tokens l.name := by
          rw [List.contains_iff_mem, h.live]
        simp only [LabelView.add]
        split
        · next htaken => exact h.refuse (hlive.mp htaken)
        · next hfree => exact h.accept fun htaken => hfree (hlive.mpr htaken)
      · have hlabel : ∀ l, t ≠ .label l := fun l heq => hlabel ⟨l, heq⟩
        rw [add_other hlabel hunit horg]
        exact h.other hlabel hunit horg

theorem Records.addAll (rest : List Token) : ∀ {v : LabelView} {tokens : List Token},
    v.Records tokens → (∀ t ∈ tokens ++ rest, t.Fresh) →
      (rest.foldl LabelView.add v).Records (tokens ++ rest) := by
  induction rest with
  | nil =>
    intro v tokens h _
    rw [List.append_nil]
    exact h
  | cons t rest ih =>
    intro v tokens h hfresh
    have hcons : tokens ++ t :: rest = tokens ++ [t] ++ rest := by simp
    rw [hcons] at hfresh ⊢
    exact ih (h.add (fun s hs => hfresh s (by simp [hs])) t) hfresh

end LabelView

/-- The end of a source forgets labels as an `org` does. -/
def sourceEnd : Token := .directive { kind := .org, position := {} }

/-- **The labels of the units and the findings about labels are what the tokens record.** -/
theorem records_segment {tokens : List Token} (hfresh : ∀ t ∈ tokens, t.Fresh) :
    ∃ v : LabelView, v.Records (tokens ++ [sourceEnd]) ∧
      v.units = (segment tokens).units.map CodeUnit.labels ∧
      ∀ f, f.complaint.isAboutLabel = true → (f ∈ (segment tokens).findings ↔ f ∈ v.findings) := by
  have hrecords := LabelView.records_empty.addAll tokens (by simpa using hfresh)
  have hlast := hrecords.add (by simpa using hfresh) sourceEnd
  have hview : tokens.foldl LabelView.add {} = (tokens.foldl Draft.add {}).labelView :=
    (Draft.labelView_addAll tokens {}).symm
  rw [LabelView.add_org rfl, hview, ← Draft.labelView_orphan, List.nil_append] at hlast
  refine ⟨_, hlast, rfl, ?_⟩
  intro f hf
  simp [segment, Draft.labelView, hf]

end Mcs51
