import Mcs51.Expression
import Mcs51.Proofs.PlainText

/-!
# Expressions that are a name

An expression may be no more than a symbol. Its program has one statement, which assigns the symbol
to the name of the result, and it has an integer as its value in exactly one case: the symbol is a
variable, and it is bound to that integer.

* `EvaluatesNames`: what is asked of an evaluator about names
* `program?_of_symbol`: the lexemes of the program
* `evaluate_of_row`: what the program gives once it is read
* `evaluate_symbol`: when a symbol has an integer as its value
* `evaluatesNames_evaluate`: the evaluator does what is asked of one
-/

namespace Mcs51.Expression

/-! ## Evaluators -/

/-- The evaluator gives a symbol that is an identifier the integer of 64 bits that it is bound to. A
symbol that is not bound, or that is no identifier, has no integer as its value. -/
structure EvaluatesNames (evaluate : Evaluator) (IsIdentifier : Text → Prop) : Prop where
  bound : ∀ {bound : Bindings} {x : Text} {n : Int}, isSymbol x = true → IsIdentifier x →
    bound x = some n → isWord n = true → evaluate bound x = .ok n
  unbound : ∀ {bound : Bindings} {x : Text} {n : Int}, isSymbol x = true → bound x = none →
    evaluate bound x ≠ .ok n
  other : ∀ {bound : Bindings} {x : Text} {n : Int}, isSymbol x = true → ¬ IsIdentifier x →
    evaluate bound x ≠ .ok n

/-- Over integers of 64 bits, this says when a symbol has an integer as its value. -/
theorem EvaluatesNames.symbol_iff {evaluate : Evaluator} {IsIdentifier : Text → Prop}
    (h : EvaluatesNames evaluate IsIdentifier) {bound : Bindings} {x : Text} {n : Int}
    (hx : isSymbol x = true) (hwords : ∀ m, bound x = some m → isWord m = true) :
    evaluate bound x = .ok n ↔ IsIdentifier x ∧ bound x = some n := by
  constructor
  · intro hvalue
    have hidentifier : IsIdentifier x :=
      Classical.byContradiction fun hnot => h.other hx hnot hvalue
    refine ⟨hidentifier, ?_⟩
    cases hbound : bound x with
    | none => exact absurd hvalue (h.unbound hx hbound)
    | some m =>
      rw [h.bound hx hidentifier hbound (hwords m hbound), Except.ok.injEq] at hvalue
      rw [hvalue]
  · rintro ⟨hidentifier, hbound⟩
    exact h.bound hx hidentifier hbound (hwords n hbound)

/-- The evaluator of names alone, all of which are identifiers. -/
def lookupName : Evaluator := fun bound x =>
  match bound x with
  | some n => .ok n
  | none => .error (.notInteger x)

theorem evaluatesNames_lookupName : EvaluatesNames lookupName fun _ => True where
  bound _ _ hbound _ := by rw [lookupName, hbound]
  unbound _ hbound := by
    rw [lookupName, hbound]
    exact nofun
  other _ hnot := absurd trivial hnot

/-! ## Lexemes -/

/-- A quote is needed for a string to start. -/
theorem stringStart?_of_not_mem {t : Text} (h : Text.singleQuote ∉ t) : stringStart? t = none := by
  rw [stringStart?, List.findSome?_eq_none_iff]
  rintro ⟨letters, raw, bytes⟩ -
  refine if_neg fun hbegins => h ?_
  obtain ⟨rest, hrest⟩ := Option.isSome_iff_exists.mp hbegins
  rw [Text.eq_append_of_dropPrefix? hrest]
  simp

/-- A word goes on as long as its bytes do. -/
theorem wordSize_append {w : Text} (hw : ∀ b ∈ w, b < 0x80 ∧ isWordByte b = true) (t : Text) :
    wordSize 0 (w ++ t) = w.length + wordSize 0 t := by
  induction w with
  | nil => exact (Nat.zero_add _).symm
  | cons b w ih =>
    obtain ⟨⟨hascii, hword⟩, htail⟩ := List.forall_mem_cons.mp hw
    rw [List.cons_append, wordSize, if_pos hascii, if_pos hword, ih htail, List.length_cons]
    omega

/-- A word that starts with no digit is one lexeme, if nothing after it belongs to it. -/
theorem lexeme?_of_word {b : UInt8} {w t : Text} (hstart : isWordStart b = true)
    (hw : ∀ c ∈ b :: w, c < 0x80 ∧ isWordByte c = true) (hend : wordSize 0 t = 0)
    (hquote : Text.singleQuote ∉ b :: w ++ t) :
    lexeme? (b :: w ++ t) = (word? (b :: w)).map fun l => (l, (b :: w).length) := by
  have hfirst : Text.isDigit b = false ∧ (b == '.'.toUInt8) = false := by
    revert hstart
    exact Text.forall_byte
      (p := fun b => isWordStart b = true → Text.isDigit b = false ∧ (b == '.'.toUInt8) = false)
      (by decide +kernel) b
  have hsize : wordSize 0 (b :: w ++ t) = (b :: w).length := by
    rw [wordSize_append hw, hend, Nat.add_zero]
  have htake : (b :: w ++ t).take (b :: w).length = b :: w := List.take_left
  unfold lexeme?
  simp only [List.cons_append] at hsize htake hquote ⊢
  simp only [hfirst, Bool.false_and, Bool.or_false, Bool.false_eq_true, if_false,
    stringStart?_of_not_mem hquote, hsize, htake]
  rfl

/-- An equals sign that no other one follows is an assignment. -/
theorem mark?_assign {b : UInt8} (hb : ('='.toUInt8 == b) = false) (t : Text) :
    mark? ('='.toUInt8 :: b :: t) = some (.assign, 1) := by
  -- but for `==`, no mark before `=` starts with its byte
  have hmarks : marks = marks.take 9 ++ ("==", .equal) :: marks.drop 10 := rfl
  have hbefore : (marks.take 9).find? (fun entry =>
      Text.beginsWith (Text.ofString entry.1) ('='.toUInt8 :: b :: t)) = none := rfl
  have hequal : Text.beginsWith (Text.ofString "==") ('='.toUInt8 :: b :: t) = false := by
    show (if '='.toUInt8 == b then Text.dropPrefix? [] t else none).isSome = false
    rw [hb]
    rfl
  have hafter : (marks.drop 10).find? (fun entry =>
      Text.beginsWith (Text.ofString entry.1) ('='.toUInt8 :: b :: t)) = some ("=", .assign) := rfl
  rw [mark?, hmarks, List.find?_append, hbefore, Option.none_or, List.find?_cons_of_neg, hafter]
  · rfl
  · simp only [hequal]
    decide

/-- A word is a name, a word that is a mark, or no lexeme at all. -/
theorem word?_cases {w : Text} {l : Lexeme} (h : word? w = some l) :
    l = .name w ∨ ∃ entry ∈ wordMarks, l = .mark entry.2 := by
  unfold word? at h
  split at h
  · next m hfind => exact .inr ⟨_, List.mem_of_find?_eq_some hfind, (Option.some.inj h).symm⟩
  · split at h
    · cases h
    · exact .inl (Option.some.inj h).symm

/-- What follows a lexeme is read on its own, unless the lexeme is a bracket. But for the backslash,
the bytes that separate lexemes are all below the equals sign. -/
theorem lexemesFrom?_append {p : Place} {b : UInt8} {w t : Text} {l : Option Lexeme}
    (hb : '='.toUInt8 ≤ b ∧ b ≠ Text.backslash)
    (hlexeme : lexeme? (b :: w ++ t) = l.map fun l => (l, (b :: w).length))
    (hdepth : ∀ m, l = some (.mark m) → depthAfter? p.depth m = some p.depth) :
    lexemesFrom? p 0 (b :: w ++ t) = l.bind fun l => (lexemesFrom? p 0 t).map (l :: ·) := by
  have hskip : ∀ w : Text, lexemesFrom? p w.length (w ++ t) = lexemesFrom? p 0 t := by
    intro w
    induction w with
    | nil => rfl
    | cons c w ih => exact ih
  have hseparators : (b == 0x20 || b == 0x09) = false ∧ (b == 0) = false ∧
      (b == '#'.toUInt8) = false ∧ (b == Text.lineFeed) = false ∧
      (b == Text.backslash) = false := by
    revert hb
    exact Text.forall_byte (p := fun b => '='.toUInt8 ≤ b ∧ b ≠ Text.backslash →
      (b == 0x20 || b == 0x09) = false ∧ (b == 0) = false ∧ (b == '#'.toUInt8) = false ∧
        (b == Text.lineFeed) = false ∧ (b == Text.backslash) = false) (by decide +kernel) b
  have hrow (l : Lexeme) : ((lexemesFrom? p 0 t).bind fun row => pure (l :: row)) =
      (lexemesFrom? p 0 t).map (l :: ·) := by
    cases lexemesFrom? p 0 t <;> rfl
  rw [List.cons_append] at hlexeme ⊢
  rw [lexemesFrom?]
  simp only [hseparators, Bool.false_eq_true, if_false, hlexeme]
  cases l with
  | none => rfl
  | some l =>
    simp only [Option.map_some, Option.bind_eq_bind, Option.bind_some, List.length_cons,
      Nat.add_sub_cancel, hskip w]
    split
    · next m =>
      rw [hdepth m rfl, Option.bind_some, hskip w]
      exact hrow _
    · exact hrow _

/-! ## The program -/

theorem plainLineEnds_of_not_mem : ∀ {t : Text}, Text.carriageReturn ∉ t → plainLineEnds t = t
  | [], _ => rfl
  | b :: t, h => by
    obtain ⟨hb, ht⟩ := not_or.mp (mt List.mem_cons.mpr h)
    have hne : (b == Text.carriageReturn) = false := beq_false_of_ne (Ne.symm hb)
    rw [plainLineEnds.eq_3 b t fun rest h => absurd h (Ne.symm hb), hne,
      plainLineEnds_of_not_mem ht]
    rfl

/-- Nothing starts with a question mark. -/
theorem lexemesFrom?_question (p : Place) (t : Text) :
    lexemesFrom? p 0 ('?'.toUInt8 :: t) = none :=
  rfl

/-- But for the question mark, the bytes of symbols are bytes of words. -/
theorem isWordByte_of_isNameByte {b : UInt8} (h : Text.isNameByte b = true ∧ b ≠ '?'.toUInt8) :
    b < 0x80 ∧ isWordByte b = true := by
  revert h
  exact Text.forall_byte (p := fun b => Text.isNameByte b = true ∧ b ≠ '?'.toUInt8 →
    b < 0x80 ∧ isWordByte b = true) (by decide +kernel) b

theorem isWordStart_of_isNameStart {b : UInt8}
    (h : Text.isNameStart b = true ∧ b ≠ '?'.toUInt8) :
    isWordStart b = true ∧ '='.toUInt8 ≤ b ∧ b ≠ Text.backslash := by
  revert h
  exact Text.forall_byte (p := fun b => Text.isNameStart b = true ∧ b ≠ '?'.toUInt8 →
    isWordStart b = true ∧ '='.toUInt8 ≤ b ∧ b ≠ Text.backslash) (by decide +kernel) b

/-- A symbol without a question mark is one word, if what follows belongs to none. -/
theorem lexemesFrom?_symbol {x t : Text} (hx : isSymbol x = true) (hquestion : '?'.toUInt8 ∉ x)
    (hend : wordSize 0 t = 0) (hquote : Text.singleQuote ∉ t) :
    lexemesFrom? {} 0 (x ++ t) =
      (word? x).bind fun l => (lexemesFrom? {} 0 t).map (l :: ·) := by
  obtain ⟨hne, hbytes⟩ := isNameByte_of_isSymbol hx
  have hwords : ∀ c ∈ x, c < 0x80 ∧ isWordByte c = true := fun c hc =>
    isWordByte_of_isNameByte ⟨hbytes c hc, fun h => hquestion (h ▸ hc)⟩
  have hall : Text.singleQuote ∉ x ++ t := by
    refine fun hmem => (List.mem_append.mp hmem).elim (fun h => ?_) hquote
    exact absurd (hbytes _ h) (by decide)
  obtain ⟨b, w, rfl⟩ := List.exists_cons_of_ne_nil hne
  obtain ⟨hstart, hb⟩ := isWordStart_of_isNameStart
    ⟨(Shape.isSymbol_cons.mp hx).1, fun h => hquestion (h ▸ List.mem_cons_self)⟩
  refine lexemesFrom?_append hb (lexeme?_of_word hstart hwords hend hall) fun m hm => ?_
  -- no word opens or closes a bracket
  obtain h | ⟨entry, hentry, h⟩ := word?_cases hm
  · cases h
  · cases h
    have hdepth : ∀ entry ∈ wordMarks, depthAfter? 0 entry.2 = some 0 := by decide
    exact hdepth entry hentry

/-- A question mark is in no word and starts no lexeme. -/
theorem lexemesFrom?_of_question {x t : Text} (hx : isSymbol x = true) (hquestion : '?'.toUInt8 ∈ x)
    (hquote : Text.singleQuote ∉ t) : lexemesFrom? {} 0 (x ++ t) = none := by
  obtain ⟨_, hbytes⟩ := isNameByte_of_isSymbol hx
  obtain ⟨w, rest, rfl, hw⟩ := List.eq_append_cons_of_mem hquestion
  rw [List.append_assoc, List.cons_append]
  cases w with
  | nil => exact lexemesFrom?_question _ _
  | cons b w =>
    obtain ⟨hstart, hrest⟩ := Shape.isSymbol_cons.mp hx
    have hword : isSymbol (b :: w) = true :=
      Shape.isSymbol_cons.mpr ⟨hstart, fun c hc => hrest c (List.mem_append_left _ hc)⟩
    have hafter : Text.singleQuote ∉ '?'.toUInt8 :: (rest ++ t) := by
      intro hmem
      obtain h | h := List.mem_append.mp (List.cons_append ▸ hmem)
      · exact absurd (hbytes _ (List.mem_append_right _ h)) (by decide)
      · exact hquote h
    -- the word before the question mark may be a lexeme, but nothing can follow it
    rw [lexemesFrom?_symbol hword hw rfl hafter, lexemesFrom?_question]
    cases word? (b :: w) <;> rfl

/-- The program of a symbol starts with the name of the result and the mark of an assignment. -/
theorem program?_eq {x : Text} (hx : isSymbol x = true) :
    program? x = (lexemesFrom? {} 0 (x ++ [Text.lineFeed])).map
      fun row => .name resultName :: .mark .assign :: row := by
  obtain ⟨hne, hbytes⟩ := isNameByte_of_isSymbol hx
  have hplain : ∀ b ∈ resultName ++ '='.toUInt8 :: x ++ [Text.lineFeed],
      (decide (b < 0x80) && b != Text.carriageReturn) = true := by
    have hsymbol (b : UInt8) (h : Text.isNameByte b = true) :
        (decide (b < 0x80) && b != Text.carriageReturn) = true := by
      revert h
      exact Text.forall_byte (p := fun b => Text.isNameByte b = true →
        (decide (b < 0x80) && b != Text.carriageReturn) = true) (by decide +kernel) b
    refine List.forall_mem_append.mpr ⟨List.forall_mem_append.mpr ⟨?_, ?_⟩, ?_⟩
    · exact List.all_eq_true.mp (by decide)
    · exact List.forall_mem_cons.mpr ⟨by decide, fun b hb => hsymbol b (hbytes b hb)⟩
    · exact List.all_eq_true.mp (by decide)
  have hencoded := Text.encoded_of_ascii fun b hb =>
    of_decide_eq_true (Bool.and_eq_true_iff.mp (hplain b hb)).1
  have hends : Text.carriageReturn ∉ resultName ++ '='.toUInt8 :: x ++ [Text.lineFeed] :=
    fun hmem => absurd (hplain _ hmem) (by decide)
  obtain ⟨b, t, rfl⟩ := List.exists_cons_of_ne_nil hne
  have hb : ('='.toUInt8 == b) = false :=
    beq_false_of_ne fun h => absurd (h ▸ hbytes b List.mem_cons_self) (by decide)
  have hassign : lexeme? ('='.toUInt8 :: (b :: t ++ [Text.lineFeed])) =
      some (.mark .assign, 1) := by
    show (mark? _).map _ = _
    rw [List.cons_append, mark?_assign hb]
    rfl
  -- the program is plain text, so that its lexemes are those of the text as it stands
  rw [program?, lexemes?, hencoded.scrub_eq, plainLineEnds_of_not_mem hends]
  calc lexemesFrom? {} 0 (resultName ++ '='.toUInt8 :: b :: t ++ [Text.lineFeed])
      = (lexemesFrom? {} 0 ('='.toUInt8 :: (b :: t ++ [Text.lineFeed]))).map
          (.name resultName :: ·) :=
        lexemesFrom?_append (w := ['c'.toUInt8]) (l := some (.name resultName)) (by decide) rfl
          fun m h => by cases h
    _ = ((lexemesFrom? {} 0 (b :: t ++ [Text.lineFeed])).map (.mark .assign :: ·)).map
          (.name resultName :: ·) := by
        congr 1
        exact lexemesFrom?_append (w := []) (l := some (.mark .assign)) (by decide) hassign
          fun m h => by cases h; rfl
    _ = _ := Option.map_map ..

/-- The lexemes of the program of a symbol. -/
theorem program?_of_symbol {x : Text} (hx : isSymbol x = true) :
    program? x = if '?'.toUInt8 ∈ x then none
      else (word? x).map fun l => [.name resultName, .mark .assign, l, .lineEnd] := by
  have hquote : Text.singleQuote ∉ [Text.lineFeed] := by decide
  rw [program?_eq hx]
  split
  · next h => rw [lexemesFrom?_of_question hx h hquote, Option.map_none]
  · next h =>
    have hend : lexemesFrom? {} 0 [Text.lineFeed] = some [.lineEnd] := rfl
    rw [lexemesFrom?_symbol hx h rfl hquote, hend]
    cases word? x <;> rfl

/-! ## Its run -/

/-- The assignment of a name to the name of the result. -/
abbrev assignName (x : Text) : List Statement := [.assign (.name resultName) (.name x)]

/-- The lexemes of the assignment. -/
abbrev nameRow (x : Text) : List Lexeme := [.name resultName, .mark .assign, .name x, .lineEnd]

theorem statements?_nameRow (x : Text) : statements? (nameRow x) = some (assignName x) := rfl

theorem depthFor_nameRow (x : Text) : depthFor (nameRow x) = 30 + 2 := rfl

theorem check_assignName (depth : Nat) (given : Names.Known) (x : Text) :
    Names.check (depth + 2) given (assignName x) =
      Names.require (Names.inside [resultName] given x) (.undefinedName x) := by
  unfold Names.check
  show Except.bind (Except.bind (Names.require (Names.inside [resultName] given x) _) fun _ =>
    .ok ()) (fun _ => _) = _
  cases Names.inside [resultName] given x <;> rfl

/-- The scope of a program that binds nothing but the name of the result. -/
abbrev resultScope (bound : Bindings) (depth : Nat) : Scope :=
  { bound, globals := [resultName], depth }

theorem run_assignName (bound : Bindings) (depth : Nat) (x : Text) :
    run bound (depth + 2) (assignName x) {} =
      ((resultScope bound (depth + 2)).lookup x { frames := #[[]] }).map fun found =>
        ((), { found.2 with globals := Store.replace resultName found.1 found.2.globals }) := by
  show Except.bind (Except.bind (Except.bind ((resultScope bound (depth + 2)).lookup x
    { frames := #[[]] }) _) _) _ = _
  cases (resultScope bound (depth + 2)).lookup x { frames := #[[]] } <;> rfl

theorem lookup_resultScope {bound : Bindings} {depth : Nat} {x : Text} (hx : x ≠ resultName)
    {v : Value} (h : Scope.given? bound x = some v) (s : Store) :
    (resultScope bound depth).lookup x s = .ok (v, s) := by
  have hglobal : [resultName].contains x = false := by simpa using hx
  simp only [Scope.lookup, Scope.find?, Scope.block?, List.find?_nil, hglobal, Bool.false_eq_true,
    if_false, pure_bind, h]
  rfl

/-! ## Its value -/

/-- No integer has a name of its own. -/
theorem ofName?_ne_integer (x : Text) (n : Int) : Value.ofName? x ≠ some (.integer n) := by
  intro h
  unfold Value.ofName? at h
  split at h
  · cases h
  · obtain ⟨entry, hfind, hentry⟩ := Option.map_eq_some_iff.mp h
    have hmem := List.mem_of_find?_eq_some hfind
    simp only [List.mem_cons, List.not_mem_nil, or_false] at hmem
    obtain rfl | rfl | rfl := hmem <;> cases hentry

theorem given?_eq_integer_iff {bound : Bindings} {x : Text} {n : Int} :
    Scope.given? bound x = some (.integer n) ↔ bound x = some n := by
  unfold Scope.given?
  cases h : bound x with
  | none =>
    rw [Option.map_none, Option.none_or]
    exact iff_of_false (ofName?_ne_integer x n) (Option.some_ne_none n).symm
  | some m => simp

theorem isGiven_eq_isSome (bound : Bindings) (x : Text) :
    Scope.isGiven bound x = (Scope.given? bound x).isSome := by
  simp [Scope.isGiven, Scope.given?]

theorem evaluate_malformed (bound : Bindings) {x : Text}
    (h : (program? x).bind statements? = none) : evaluate bound x = .error .malformed := by
  unfold evaluate
  cases hrow : program? x with
  | none => rfl
  | some row =>
    rw [hrow, Option.bind_some] at h
    simp only [h]
    rfl

/-- The program of a name that is not that of the result gives the value of the name. -/
theorem evaluate_given {bound : Bindings} {x : Text} {v : Value} {n : Int}
    (hrow : program? x = some (nameRow x)) (hx : x ≠ resultName)
    (hv : Scope.given? bound x = some v) :
    evaluate bound x = .ok n ↔ v = .integer n ∧ isWord n = true := by
  have hlookup : (Store.replace resultName v []).lookup resultName = some v := rfl
  unfold evaluate
  simp only [hrow, statements?_nameRow, depthFor_nameRow, check_assignName, run_assignName,
    Names.inside, isGiven_eq_isSome, hv, Option.isSome_some, Bool.or_true, Names.require, if_true,
    lookup_resultScope hx hv, Except.map, hlookup]
  cases v with
  | integer m =>
    show (if isWord m then Except.ok m else Except.error (Error.notInteger x)) = .ok n ↔ _
    rw [Value.integer.injEq]
    split
    · next hm =>
      rw [Except.ok.injEq]
      exact ⟨fun h => ⟨h, h ▸ hm⟩, fun h => h.1⟩
    · next hm =>
      refine iff_of_false (fun h => ?_) fun h => hm (h.1 ▸ h.2)
      cases h
  | _ =>
    refine iff_of_false (fun h => ?_) (fun h => ?_)
    · cases h
    · cases h.1

/-- The name of the result has no value yet when it is looked up. -/
theorem evaluate_resultName (bound : Bindings)
    (hrow : program? resultName = some (nameRow resultName)) :
    evaluate bound resultName = .error (.failed (.unassigned resultName)) := by
  have hlookup : (resultScope bound (30 + 2)).lookup resultName { frames := #[[]] } =
      .error (.unassigned resultName) := rfl
  have hcontains : [resultName].contains resultName = true := rfl
  unfold evaluate
  simp only [hrow, statements?_nameRow, depthFor_nameRow, check_assignName, run_assignName,
    Names.inside, hcontains, Bool.true_or, Names.require, if_true, hlookup, Except.map]
  rfl

theorem evaluate_undefined {bound : Bindings} {x : Text} (hrow : program? x = some (nameRow x))
    (hx : x ≠ resultName) (hv : Scope.given? bound x = none) :
    evaluate bound x = .error (.misused (.undefinedName x)) := by
  have hcontains : [resultName].contains x = false := by simpa using hx
  unfold evaluate
  simp only [hrow, statements?_nameRow, depthFor_nameRow, check_assignName, Names.inside,
    hcontains, isGiven_eq_isSome, hv, Option.isSome_none, Bool.or_false, Names.require,
    Bool.false_eq_true, if_false]
  rfl

/-- Once it is read, an expression that is a name has an integer as its value if it is bound to that
integer, which must be a word. -/
theorem evaluate_of_row {bound : Bindings} {x : Text} {n : Int}
    (hrow : program? x = some (nameRow x)) :
    evaluate bound x = .ok n ↔ x ≠ resultName ∧ bound x = some n ∧ isWord n = true := by
  by_cases hx : x = resultName
  · refine iff_of_false (fun h => ?_) fun h => h.1 hx
    subst hx
    rw [evaluate_resultName bound hrow] at h
    cases h
  rw [and_iff_right hx, ← given?_eq_integer_iff]
  cases hv : Scope.given? bound x with
  | none =>
    rw [evaluate_undefined hrow hx hv]
    refine iff_of_false (fun h => ?_) fun h => ?_
    · cases h
    · cases h.1
  | some v => rw [evaluate_given hrow hx hv, Option.some.injEq]

/-- A symbol that is a name in expressions: no byte of it is a question mark, it is no word that is
reserved, and it is not the name of the result. -/
structure IsVariable (x : Text) : Prop where
  noQuestion : '?'.toUInt8 ∉ x
  isName : word? x = some (.name x)
  ne_result : x ≠ resultName

/-- **A symbol has an integer as its value if and only if it is a variable bound to it.** -/
theorem evaluate_symbol {bound : Bindings} {x : Text} (hx : isSymbol x = true) {n : Int} :
    evaluate bound x = .ok n ↔ IsVariable x ∧ bound x = some n ∧ isWord n = true := by
  have hprogram := program?_of_symbol hx
  constructor
  · intro h
    have hread : (program? x).bind statements? ≠ none := fun hnone => by
      rw [evaluate_malformed bound hnone] at h
      cases h
    by_cases hquestion : '?'.toUInt8 ∈ x
    · exact absurd (by rw [hprogram, if_pos hquestion, Option.bind_none]) hread
    rw [if_neg hquestion] at hprogram
    cases hword : word? x with
    | none => exact absurd (by rw [hprogram, hword, Option.map_none, Option.bind_none]) hread
    | some l =>
      rw [hword, Option.map_some] at hprogram
      obtain rfl | ⟨entry, hentry, rfl⟩ := word?_cases hword
      · obtain ⟨hne, hbound, hn⟩ := (evaluate_of_row hprogram).mp h
        exact ⟨⟨hquestion, hword, hne⟩, hbound, hn⟩
      · -- no expression is a word that is a mark
        have hmarks : ∀ entry ∈ wordMarks,
            statements? [.name resultName, .mark .assign, .mark entry.2, .lineEnd] = none := by
          decide +kernel
        exact absurd (by rw [hprogram, Option.bind_some, hmarks entry hentry]) hread
  · rintro ⟨⟨hquestion, hword, hne⟩, hbound, hn⟩
    rw [if_neg hquestion, hword] at hprogram
    exact (evaluate_of_row hprogram).mpr ⟨hne, hbound, hn⟩

/-- **The evaluator gives names their integers**, and those of variables only. -/
theorem evaluatesNames_evaluate : EvaluatesNames evaluate IsVariable where
  bound hx hvariable hbound hword := (evaluate_symbol hx).mpr ⟨hvariable, hbound, hword⟩
  unbound hx hbound hvalue := by
    rw [evaluate_symbol hx, hbound] at hvalue
    cases hvalue.2.1
  other hx hnot hvalue := hnot ((evaluate_symbol hx).mp hvalue).1

end Mcs51.Expression
