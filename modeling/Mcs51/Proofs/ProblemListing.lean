import Mathlib.Data.List.Forall2
import Mcs51.Problem

/-!
# The listing of problems

Problems are listed in an order that does not depend on how they came in: two reports of the same
problems have listings that differ at most in the causes. A listing has the problems that were
reported, in the order of problems, and those that the order does not tell apart stay as they were
reported. A report only grows, by the problems that calls add to it; counting and listing leave it
as it is.

* `Problem.Alike` — two problems that agree in all that the order looks at
* `Problem.order_eq_iff` — the order tells all other problems apart
* `Report.IsListing` — what makes a list the listing of given problems
* `Report.IsListing.alike` — listings of the same problems agree place by place
* `Report.run_fst` — what a report holds after a run of calls
* `Report.sorted_of_perm` — the listings after two runs that report the same problems
-/

namespace Mcs51

/-! ## The order of problems -/

/-- The order of byte strings is the lexicographic one. -/
theorem Text.order_eq_compare : ∀ s t : Text, order s t = compare s t
  | [], [] => rfl
  | [], _ :: _ => rfl
  | _ :: _, [] => rfl
  | a :: s, b :: t => by
    rw [order, order_eq_compare s t, List.compare_cons_cons]
    rcases hab : compare a b with _ | _ | _
    · rw [if_pos (Std.compare_eq_lt.mp hab)]
      rfl
    · rw [Std.LawfulEqCmp.eq_of_compare hab, if_neg (UInt8.lt_irrefl b), if_neg (UInt8.lt_irrefl b)]
      rfl
    · have hba : b < a := Std.compare_eq_gt.mp hab
      rw [if_neg (UInt8.lt_asymm hba), if_pos hba]
      rfl

namespace Problem

/-- Two problems that agree in all that the order looks at. Their causes may differ. -/
structure Alike (p q : Problem) : Prop where
  severity : p.severity = q.severity
  path : p.path = q.path
  line : p.line = q.line
  message : p.message = q.message

/-- The problem without its cause. -/
def bare (p : Problem) : Problem := { p with cause := none }

theorem bare_eq_iff {p q : Problem} : p.bare = q.bare ↔ p.Alike q := by
  rw [bare, bare, mk.injEq]
  constructor
  · rintro ⟨hseverity, hmessage, hpath, hline, _⟩
    exact ⟨hseverity, hpath, hline, hmessage⟩
  · rintro ⟨hseverity, hpath, hline, hmessage⟩
    exact ⟨hseverity, hmessage, hpath, hline, rfl⟩

theorem order_eq_compareLex : order =
    compareLex (compareOn fun p => p.severity.code)
      (compareLex (compareOn path) (compareLex (compareOn line) (compareOn message))) := by
  funext p q
  simp only [order, Text.order_eq_compare]
  rfl

instance : Std.TransCmp order := order_eq_compareLex ▸ inferInstance

/-- **Problems that the order does not tell apart are alike.** -/
theorem order_eq_iff {p q : Problem} : order p q = .eq ↔ p.Alike q := by
  simp only [order, Text.order_eq_compare, Ordering.then_eq_eq, Std.compare_eq_iff_eq]
  constructor
  · rintro ⟨hseverity, hpath, hline, hmessage⟩
    exact ⟨congrArg Severity.mk hseverity, hpath, hline, hmessage⟩
  · rintro ⟨hseverity, hpath, hline, hmessage⟩
    exact ⟨congrArg Severity.code hseverity, hpath, hline, hmessage⟩

theorem order_swap (p q : Problem) : order p q = (order q p).swap := Std.OrientedCmp.eq_swap

theorem le_trans (p q r : Problem) (hpq : p.le q = true) (hqr : q.le r = true) : p.le r = true :=
  Std.TransCmp.isLE_trans hpq hqr

theorem le_total (p q : Problem) : (p.le q || q.le p) = true := by
  rw [Bool.or_eq_true, le, le, order_swap q p]
  cases order p q <;> decide

/-- Of two problems each of which may be listed first, neither comes first. -/
theorem order_eq_of_le {p q : Problem} (hpq : p.le q = true) (hqp : q.le p = true) :
    order p q = .eq := by
  rw [le] at hpq
  rw [le, order_swap q p] at hqp
  cases h : order p q with
  | lt =>
    rw [h] at hqp
    cases hqp
  | eq => rfl
  | gt =>
    rw [h] at hpq
    cases hpq

/-- What the order has not told apart, it does not tell apart from a third. -/
theorem le_of_order_eq {p q r : Problem} (hq : order p q = .eq) (hr : order p r = .eq) :
    q.le r = true := by
  have hqp : q.le p = true := by
    rw [le, order_swap q p, hq]
    rfl
  exact le_trans q p r hqp (by rw [le, hr]; rfl)

end Problem

namespace Report

/-! ## Listings -/

/-- `listing` lists `problems`: it has the same problems, in the order of problems, and those that
are alike stay as they were. -/
structure IsListing (problems listing : List Problem) : Prop where
  perm : listing.Perm problems
  ordered : listing.Pairwise fun p q => p.order q ≠ .gt
  stable : ∀ p : Problem, (listing.filter fun q => p.order q == .eq)
    = problems.filter fun q => p.order q == .eq

section

variable {problems others listing listing' : List Problem}

theorem isListing_mergeSort (problems : List Problem) :
    IsListing problems (problems.mergeSort Problem.le) where
  perm := List.mergeSort_perm problems Problem.le
  ordered := (List.pairwise_mergeSort Problem.le_trans Problem.le_total problems).imp fun h =>
    Ordering.isLE_iff_ne_gt.mp h
  stable p := by
    -- those alike are in order as they stand, so sorting keeps them as a row
    have hordered : (problems.filter fun q => p.order q == .eq).Pairwise
        fun q r => q.le r = true := by
      refine List.pairwise_of_forall_mem_list fun q hq r hr => ?_
      rw [List.mem_filter, beq_iff_eq] at hq hr
      exact Problem.le_of_order_eq hq.2 hr.2
    have hsub := (List.sublist_mergeSort Problem.le_trans Problem.le_total hordered
      List.filter_sublist).filter fun q => p.order q == .eq
    simp only [List.filter_filter, Bool.and_self] at hsub
    have hlength := ((List.mergeSort_perm problems Problem.le).filter
      fun q => p.order q == .eq).length_eq
    exact (hsub.eq_of_length hlength.symm).symm

/-- The problems of a listing without their causes are in order. -/
theorem IsListing.ordered_bare (h : IsListing problems listing) :
    (listing.map Problem.bare).Pairwise fun p q => p.le q = true :=
  List.pairwise_map.mpr (h.ordered.imp fun hne => Ordering.isLE_iff_ne_gt.mpr hne)

/-- **Listings of the same problems agree place by place.** -/
theorem IsListing.alike (h : IsListing problems listing) (h' : IsListing others listing')
    (hperm : problems.Perm others) : List.Forall₂ Problem.Alike listing listing' := by
  -- the order is antisymmetric on problems without their causes, so these have one sorted row
  have hsame : (listing.map Problem.bare).Perm (listing'.map Problem.bare) :=
    ((h.perm.trans hperm).trans h'.perm.symm).map Problem.bare
  have hantisymm : ∀ p q, p ∈ listing.map Problem.bare → q ∈ listing'.map Problem.bare →
      p.le q = true → q.le p = true → p = q := by
    intro p q hp hq hpq hqp
    obtain ⟨p, _, rfl⟩ := List.mem_map.mp hp
    obtain ⟨q, _, rfl⟩ := List.mem_map.mp hq
    exact Problem.bare_eq_iff.mpr (Problem.order_eq_iff.mp (Problem.order_eq_of_le hpq hqp))
  have hbare : listing.map Problem.bare = listing'.map Problem.bare :=
    List.Perm.eq_of_pairwise hantisymm h.ordered_bare h'.ordered_bare hsame
  rw [← List.forall₂_eq_eq_eq, List.forall₂_map_left_iff, List.forall₂_map_right_iff] at hbare
  exact hbare.imp fun _ _ heq => Problem.bare_eq_iff.mp heq

end

/-! ## Calls -/

/-- What can be asked of a report. -/
inductive Query where
  | count (severity : Severity)
  | listing
  deriving Repr, DecidableEq

/-- What is answered. -/
inductive Answer where
  | number (n : Nat)
  | problems (listing : List Problem)
  deriving Repr, DecidableEq

/-- A call on a report: one that adds problems to it, or a query. -/
inductive Call where
  | report (p : Problem)
  | add (severity : Severity) (cause : Option Cause) (m : Message)
  | merge (problems : List Problem)
  | ask (query : Query)

def answer (r : Report) : Query → Answer
  | .count severity => .number (r.count severity)
  | .listing => .problems r.sorted

/-- The report after a call, and the answer to a query. -/
def call (r : Report) : Call → Report × Option Answer
  | .report p => (r.report p, none)
  | .add severity cause m => (r.add severity cause m, none)
  | .merge problems => (r.merge problems, none)
  | .ask query => (r, some (r.answer query))

/-- The report after a run of calls, and the answers to its queries. -/
def run (r : Report) : List Call → Report × List Answer
  | [] => (r, [])
  | c :: calls =>
    let rest := (r.call c).1.run calls
    (rest.1, (r.call c).2.toList ++ rest.2)

/-- The problems that a call reports; `path` is the one of the report. -/
def Call.reported (path : Text) : Call → List Problem
  | .report p => [p]
  | .add severity cause m => [Problem.of path severity cause m.render]
  | .merge problems => problems
  | .ask _ => []

/-- All problems that were reported when some calls have been made. -/
def reportedBy (r : Report) (calls : List Call) : List Problem :=
  r.problems ++ calls.flatMap (Call.reported r.path)

/-- A call adds what it reports. -/
theorem call_fst (r : Report) (c : Call) : (r.call c).1 = r.merge (c.reported r.path) := by
  cases c with
  | report p => rfl
  | add severity cause m => rfl
  | merge problems => rfl
  | ask query => rw [call, Call.reported, merge, List.append_nil]

/-- **After a run a report holds what was reported, and nothing else has changed.** -/
theorem run_fst : ∀ (r : Report) (calls : List Call),
    (r.run calls).1 = { r with problems := r.reportedBy calls }
  | r, [] => by rw [reportedBy, List.flatMap_nil, List.append_nil]; rfl
  | r, c :: calls => by
    have ih := run_fst (r.merge (c.reported r.path)) calls
    rw [run, call_fst, ih, reportedBy, reportedBy, merge, List.flatMap_cons, List.append_assoc]

theorem run_append (r : Report) (before after : List Call) :
    r.run (before ++ after) = (((r.run before).1.run after).1,
      (r.run before).2 ++ ((r.run before).1.run after).2) := by
  induction before generalizing r with
  | nil => rfl
  | cons c before ih => simp only [List.cons_append, run, ih, List.append_assoc]

/-- A query is answered from the report as it is, which later calls find unchanged. -/
theorem run_ask (r : Report) (query : Query) (calls : List Call) :
    r.run (.ask query :: calls) = ((r.run calls).1, r.answer query :: (r.run calls).2) := rfl

theorem isListing_run (r : Report) (calls : List Call) :
    IsListing (r.reportedBy calls) (r.run calls).1.sorted := by
  rw [run_fst]
  exact isListing_mergeSort (r.reportedBy calls)

/-- **A listing does not depend on the order of reporting.** After any two runs of calls that
reported the same problems, in whatever order, the listings agree place by place in severity, path,
line and message. Each lists what was reported, and a query between other calls changes neither the
report nor any other answer. -/
theorem sorted_of_perm (r₁ r₂ : Report) (calls₁ calls₂ : List Call)
    (h : (r₁.reportedBy calls₁).Perm (r₂.reportedBy calls₂)) :
    List.Forall₂ Problem.Alike (r₁.run calls₁).1.sorted (r₂.run calls₂).1.sorted ∧
      IsListing (r₁.reportedBy calls₁) (r₁.run calls₁).1.sorted ∧
      IsListing (r₂.reportedBy calls₂) (r₂.run calls₂).1.sorted ∧
      ∀ (r : Report) (query : Query) (before after : List Call), ∃ earlier later,
        r.run (before ++ after) = ((r.run (before ++ after)).1, earlier ++ later) ∧
        r.run (before ++ .ask query :: after)
          = ((r.run (before ++ after)).1, earlier ++ (r.run before).1.answer query :: later) := by
  have h₁ := isListing_run r₁ calls₁
  have h₂ := isListing_run r₂ calls₂
  refine ⟨h₁.alike h₂ h, h₁, h₂, fun r query before after =>
    ⟨(r.run before).2, ((r.run before).1.run after).2, ?_, ?_⟩⟩
  · rw [run_append]
  · rw [run_append, run_append, run_ask]

/-- An error that two causes can give. -/
def duplicated (cause : Text) : Problem :=
  { severity := .error, message := "duplicated", path := "t.asm", line := 2, cause := some cause }

/-- A run that asks for a listing before its last call. -/
def listingEarly : List Call :=
  [.report (duplicated "x"), .ask .listing, .add .warning none ⟨"late", []⟩,
    .merge [duplicated "y"]]

/-- A run that reports the same problems the other way round. -/
def countingLate : List Call :=
  [.merge [duplicated "y"], .add .warning none ⟨"late", []⟩, .ask (.count .error),
    .report (duplicated "x")]

theorem sorted_of_perm_duplicated :
    (({} : Report).reportedBy listingEarly).Perm (({} : Report).reportedBy countingLate) ∧
      List.Forall₂ Problem.Alike (({} : Report).run listingEarly).1.sorted
        (({} : Report).run countingLate).1.sorted := by
  have h : (({} : Report).reportedBy listingEarly).Perm (({} : Report).reportedBy countingLate) :=
    (List.reverse_perm _).symm
  exact ⟨h, (sorted_of_perm {} {} listingEarly countingLate h).1⟩

end Report
end Mcs51
