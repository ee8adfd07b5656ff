import Mcs51.Program

/-!
# Assembly

Tokens become units, units are laid out, and the settled units are a program. Problems go to a
report; a layout that does not settle is the one thing that leaves no program.
-/

namespace Mcs51

/-- What assembling gives. -/
structure Assembly where
  report : Report
  /-- The number of units that changed in each pass. -/
  changes : List Nat
  /-- The number of units. -/
  unitCount : Nat
  program : Except NoConvergence Program

namespace Assembly

/-- Assembles tokens and adds what there is to say to a report; `lay` lays the units out. -/
def assembleWith (lay : List CodeUnit → Layout.Run) (limit : Int) (tokens : List Token)
    (report : Report) : Assembly :=
  let segmented := segment tokens
  let report := report.addFindings segmented.findings
  let run := lay segmented.units
  match run.settled? with
  | none =>
    { report, changes := run.changes, unitCount := segmented.units.length,
      program := .error ⟨limit⟩ }
  | some units =>
    let program := Program.ofUnits units
    let report := (report.merge (units.flatMap CodeUnit.problems)).addFindings program.check
    { report, changes := run.changes, unitCount := units.length, program := .ok program }

/-- Assembles tokens under the settings. -/
def assemble (settings : Settings) (tokens : List Token) (report : Report) : Assembly :=
  assembleWith (Layout.run settings) (Layout.limit settings) tokens report

/-- The log line of a pass. -/
def passLine (number changed count : Nat) : Text :=
  Text.ofString "pass " ++ Text.ofNat number ++ Text.ofString ": " ++ Text.ofNat changed
    ++ Text.ofString " of " ++ Text.ofNat count ++ Text.ofString " units changed size"

/-- The log of all passes. -/
def log (a : Assembly) : List Text :=
  a.changes.zipIdx.map fun (changed, number) => passLine number changed a.unitCount

end Assembly
end Mcs51
