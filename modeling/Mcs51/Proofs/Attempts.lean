import Mcs51.Attempt

/-!
# Chains of attempts

The results and the findings of the ways to chain attempts. The result of a chain depends on the
results of its parts only, so a chain of attempts is a chain of options; the findings add up along
the way.

Reading a text gives a result and no finding, or one error (`Attempt.Decides`). Where encoding
fails, it should come with an error: `Attempt.Loud` says so; `Attempt.Fair` also allows a failure
without any finding, which leaves it to others to report one. What breaks fairness is a finding that
is no error, followed by a failure without one.
-/

namespace Mcs51

/-- The finding is an error at the place. -/
def Finding.IsErrorAt (pos : Position) (f : Finding) : Prop :=
  f.severity = .error ∧ f.position = pos

namespace Attempt

variable {α β : Type}

/-! ## Results -/

@[simp] theorem result_done (a : α) : (done a).result = some a := rfl

@[simp] theorem result_pure (a : α) : (pure a : Attempt α).result = some a := rfl

@[simp] theorem result_mismatch : (mismatch : Attempt α).result = none := rfl

@[simp] theorem result_fail (f : Finding) : (fail f : Attempt α).result = none := rfl

@[simp] theorem result_remark (f : Finding) : (remark f).result = some () := rfl

@[simp] theorem result_cases (x : Attempt α) (f : α → Attempt β) (other : Unit → Attempt β) :
    (x.cases f other).result = match x.result with
      | some a => (f a).result
      | none => (other ()).result := by
  unfold cases
  cases x.result <;> rfl

@[simp] theorem result_bind (x : Attempt α) (f : α → Attempt β) :
    (x >>= f).result = x.result.bind fun a => (f a).result := by
  show (x.cases f fun _ => mismatch).result = _
  rw [result_cases]
  cases x.result <;> rfl

@[simp] theorem result_map (g : α → β) (x : Attempt α) : (g <$> x).result = x.result.map g := by
  show (x >>= fun a => pure (g a)).result = _
  rw [result_bind]
  cases x.result <;> rfl

@[simp] theorem result_orElse (x y : Attempt α) : (x <|> y).result = x.result.or y.result := by
  show (x.cases done fun _ => y).result = _
  rw [result_cases]
  cases x.result <;> rfl

theorem result_bind_eq_some {x : Attempt α} {f : α → Attempt β} {b : β} :
    (x >>= f).result = some b ↔ ∃ a, x.result = some a ∧ (f a).result = some b := by
  rw [result_bind, Option.bind_eq_some_iff]

/-- Attempts with the same result go on to the same result. -/
theorem result_bind_congr {x y : Attempt α} (h : x.result = y.result) (f : α → Attempt β) :
    (x >>= f).result = (y >>= f).result := by
  rw [result_bind, result_bind, h]

theorem result_return_eq_some {x : Attempt α} {g : α → β} {b : β} :
    (do return g (← x) : Attempt β).result = some b ↔ ∃ a, x.result = some a ∧ g a = b := by
  simp only [result_bind_eq_some, result_pure, Option.some.injEq]

theorem result_orElse_eq_some {x y : Attempt α} {a : α} :
    (x <|> y).result = some a ↔
      x.result = some a ∨ x.result = none ∧ y.result = some a := by
  rw [result_orElse, Option.or_eq_some_iff]

/-! ## Findings -/

@[simp] theorem findings_done (a : α) : (done a).findings = [] := rfl

@[simp] theorem findings_pure (a : α) : (pure a : Attempt α).findings = [] := rfl

@[simp] theorem findings_mismatch : (mismatch : Attempt α).findings = [] := rfl

@[simp] theorem findings_fail (f : Finding) : (fail f : Attempt α).findings = [f] := rfl

@[simp] theorem findings_remark (f : Finding) : (remark f).findings = [f] := rfl

@[simp] theorem findings_cases (x : Attempt α) (f : α → Attempt β) (other : Unit → Attempt β) :
    (x.cases f other).findings = x.findings ++ match x.result with
      | some a => (f a).findings
      | none => (other ()).findings := by
  unfold cases
  cases x.result <;> rfl

@[simp] theorem findings_bind (x : Attempt α) (f : α → Attempt β) :
    (x >>= f).findings = x.findings ++ match x.result with
      | some a => (f a).findings
      | none => [] := by
  show (x.cases f fun _ => mismatch).findings = _
  rw [findings_cases]
  cases x.result <;> rfl

@[simp] theorem findings_map (g : α → β) (x : Attempt α) : (g <$> x).findings = x.findings := by
  show (x >>= fun a => pure (g a)).findings = _
  rw [findings_bind]
  cases x.result <;> simp

@[simp] theorem findings_orElse (x y : Attempt α) :
    (x <|> y).findings = x.findings ++ match x.result with
      | some _ => []
      | none => y.findings := by
  show (x.cases done fun _ => y).findings = _
  rw [findings_cases]
  cases x.result <;> rfl

/-! ## Errors of failures -/

/-- Some finding is an error. -/
def HasError (x : Attempt α) : Prop := ∃ f ∈ x.findings, f.severity = .error

/-- Every finding is an error. -/
def Strict (x : Attempt α) : Prop := ∀ f ∈ x.findings, f.severity = .error

/-- A failure has an error. -/
def Loud (x : Attempt α) : Prop := x.result = none → x.HasError

/-- A failure has an error or no finding at all. -/
def Fair (x : Attempt α) : Prop := x.result = none → x.findings = [] ∨ x.HasError

theorem HasError.cases {x : Attempt α} (h : x.HasError) (f : α → Attempt β)
    (other : Unit → Attempt β) : (x.cases f other).HasError := by
  obtain ⟨e, he, herror⟩ := h
  refine ⟨e, ?_, herror⟩
  rw [findings_cases]
  exact List.mem_append_left _ he

theorem hasError_bind {x : Attempt α} {f : α → Attempt β} {a : α} (hresult : x.result = some a)
    (h : (f a).HasError) : (x >>= f).HasError := by
  obtain ⟨e, he, herror⟩ := h
  refine ⟨e, ?_, herror⟩
  rw [findings_bind, hresult]
  exact List.mem_append_right _ he

theorem strict_done (a : α) : (done a).Strict := nofun

theorem strict_pure (a : α) : (pure a : Attempt α).Strict := nofun

theorem strict_mismatch : (mismatch : Attempt α).Strict := nofun

theorem strict_fail {f : Finding} (h : f.severity = .error) : (fail f : Attempt α).Strict :=
  fun _ hf => List.mem_singleton.mp hf ▸ h

theorem Strict.cases {x : Attempt α} {f : α → Attempt β} {other : Unit → Attempt β}
    (hx : x.Strict) (hf : ∀ a, (f a).Strict) (hother : (other ()).Strict) :
    (x.cases f other).Strict := by
  intro e he
  rw [findings_cases] at he
  rcases List.mem_append.mp he with he | he
  · exact hx e he
  · split at he
    · exact hf _ e he
    · exact hother e he

theorem Strict.bind {x : Attempt α} {f : α → Attempt β} (hx : x.Strict)
    (hf : ∀ a, (f a).Strict) : (x >>= f).Strict :=
  hx.cases hf strict_mismatch

theorem Strict.return {x : Attempt α} (hx : x.Strict) (g : α → β) :
    (do return g (← x) : Attempt β).Strict :=
  hx.bind fun _ => strict_pure _

theorem Strict.map {x : Attempt α} (hx : x.Strict) (g : α → β) : (g <$> x).Strict :=
  hx.return g

theorem Strict.orElse {x y : Attempt α} (hx : x.Strict) (hy : y.Strict) : (x <|> y).Strict :=
  hx.cases strict_done hy

/-- Where every finding is an error, any finding will do. -/
theorem Strict.fair {x : Attempt α} (h : x.Strict) : x.Fair := by
  intro _
  cases hfindings : x.findings with
  | nil => exact Or.inl rfl
  | cons e rest =>
    have he : e ∈ x.findings := hfindings ▸ List.mem_cons_self
    exact Or.inr ⟨e, he, h e he⟩

theorem Loud.fair {x : Attempt α} (h : x.Loud) : x.Fair := fun hnone => Or.inr (h hnone)

theorem loud_pure (a : α) : (pure a : Attempt α).Loud := nofun

theorem loud_fail {f : Finding} (h : f.severity = .error) : (fail f : Attempt α).Loud :=
  fun _ => ⟨f, List.mem_singleton_self f, h⟩

theorem Loud.bind {x : Attempt α} {f : α → Attempt β} (hx : x.Loud) (hf : ∀ a, (f a).Loud) :
    (x >>= f).Loud := by
  intro hnone
  rw [result_bind] at hnone
  cases hresult : x.result with
  | none => exact (hx hresult).cases _ _
  | some a =>
    rw [hresult, Option.bind_some] at hnone
    exact hasError_bind hresult (hf a hnone)

theorem Loud.map {x : Attempt α} (hx : x.Loud) (g : α → β) : (g <$> x).Loud :=
  hx.bind fun _ => loud_pure _

/-- Of two attempts that both fail, one that reports it is enough. -/
theorem loud_orElse {x y : Attempt α} (h : x.Loud ∨ y.Loud) : (x <|> y).Loud := by
  intro hnone
  rw [result_orElse, Option.or_eq_none_iff] at hnone
  obtain ⟨hx, hy⟩ := hnone
  rcases h with h | h
  · exact (h hx).cases _ _
  · obtain ⟨e, he, herror⟩ := h hy
    refine ⟨e, ?_, herror⟩
    rw [findings_orElse, hx]
    exact List.mem_append_right _ he

/-- What goes on with attempts that report their failures may have findings of any kind before. -/
theorem Fair.bind_loud {x : Attempt α} {f : α → Attempt β} (hx : x.Fair)
    (hf : ∀ a, (f a).Loud) : (x >>= f).Fair := by
  intro hnone
  rw [result_bind] at hnone
  cases hresult : x.result with
  | none =>
    rcases hx hresult with hempty | herror
    · exact Or.inl (by rw [findings_bind, hresult, hempty]; rfl)
    · exact Or.inr (herror.cases _ _)
  | some a =>
    rw [hresult, Option.bind_some] at hnone
    exact Or.inr (hasError_bind hresult (hf a hnone))

theorem Strict.bind_fair {x : Attempt α} {f : α → Attempt β} (hx : x.Strict)
    (hf : ∀ a, (f a).Fair) : (x >>= f).Fair := by
  intro hnone
  rw [result_bind] at hnone
  cases hresult : x.result with
  | none =>
    rcases hx.fair hresult with hempty | herror
    · exact Or.inl (by rw [findings_bind, hresult, hempty]; rfl)
    · exact Or.inr (herror.cases _ _)
  | some a =>
    rw [hresult, Option.bind_some] at hnone
    rcases hf a hnone with hempty | herror
    · cases hfindings : x.findings with
      | nil => exact Or.inl (by rw [findings_bind, hresult, hfindings]; exact hempty)
      | cons e rest =>
        have he : e ∈ x.findings := hfindings ▸ List.mem_cons_self
        exact Or.inr (HasError.cases ⟨e, he, hx e he⟩ _ _)
    · exact Or.inr (hasError_bind hresult herror)

/-! ## Decisions -/

/-- The attempt has a result and no finding, or no result and one finding, which is an error at the
place. -/
inductive Decides (pos : Position) : Attempt α → Prop
  | done (a : α) : Decides pos (done a)
  | fail {f : Finding} (h : f.IsErrorAt pos) : Decides pos (fail f)

theorem decides_error (complaint : Complaint) (text : Text) (pos : Position) :
    (fail (.error complaint text pos) : Attempt α).Decides pos :=
  .fail ⟨rfl, rfl⟩

/-- **A chain of decisions is a decision**: it ends with the first part that fails. -/
theorem Decides.bind {pos : Position} {x : Attempt α} {f : α → Attempt β} (hx : x.Decides pos)
    (hf : ∀ a, (f a).Decides pos) : (x >>= f).Decides pos := by
  cases hx with
  | done a => exact hf a
  | fail h => exact .fail h

theorem Decides.return {pos : Position} {x : Attempt α} (hx : x.Decides pos) (g : α → β) :
    (do return g (← x) : Attempt β).Decides pos :=
  hx.bind fun a => .done (g a)

theorem Decides.loud {pos : Position} {x : Attempt α} (hx : x.Decides pos) : x.Loud := by
  cases hx with
  | done a => exact loud_pure a
  | fail h => exact loud_fail h.1

end Attempt
end Mcs51
