import Mcs51.Segment

/-!
# Layout

A pass puts units one after the other, each segment from its origin on, gives references the
addresses of their labels, and compiles every unit. An instruction may become longer or shorter when
addresses move, so passes are repeated until no unit changes its size. The first pass finds every
size from nothing; only the passes after it count against the limit.
-/

namespace Mcs51

/-- Code did not settle within the limit. -/
structure NoConvergence where
  passes : Int
  deriving Repr, DecidableEq

/-- The wording of a layout that does not settle. -/
def NoConvergence.message (e : NoConvergence) : Text :=
  (Message.mk "code layout did not converge after %v passes" [e.passes]).render

namespace Layout

/-- Places units after one of segment `segment?` that ends at `point`. -/
def placeFrom : Option Nat → UInt32 → List CodeUnit → List CodeUnit
  | _, _, [] => []
  | segment?, point, u :: units =>
    let here := if segment? = some u.segment then point else u.origin
    u.placeAt here :: placeFrom (some u.segment) (here + toWord u.size) units

/-- Places units in source order. -/
def place (units : List CodeUnit) : List CodeUnit := placeFrom none 0 units

/-- The labels of units with their addresses. -/
def labels (units : List CodeUnit) : List (Text × UInt32) :=
  units.flatMap fun u => u.labels.map fun l => (l.name, l.address)

/-- Gives references the addresses of their labels. -/
def resolve (units : List CodeUnit) : List CodeUnit :=
  let known := labels units
  units.map (CodeUnit.resolve fun name => known.lookup name)

/-- One pass, where `compile` encodes a unit. -/
def passWith (compile : CodeUnit → CodeUnit) (units : List CodeUnit) : List CodeUnit :=
  (resolve (place units)).map compile

/-- The number of units whose size differs. -/
def changes (before after : List CodeUnit) : Nat :=
  (before.zip after).countP fun (u, v) => u.size != v.size

/-- How passes ended: the number of units that changed in each, and the units if they settled. -/
structure Run where
  changes : List Nat
  settled? : Option (List CodeUnit)

/-- At most `limit` passes, until one changes no size. -/
def passes (compile : CodeUnit → CodeUnit) : Nat → List CodeUnit → Run
  | 0, _ => ⟨[], none⟩
  | limit + 1, units =>
    let next := passWith compile units
    let changed := changes units next
    if changed = 0 then ⟨[changed], some next⟩
    else
      let run := passes compile limit next
      ⟨changed :: run.changes, run.settled?⟩

/-- The passes after the first that the settings allow; 32 unless at least one is asked for. -/
def limit (settings : Settings) : Int :=
  if settings.maxPasses < 1 then 32 else settings.maxPasses

/-- Lays units out under the settings. -/
def run (settings : Settings) (units : List CodeUnit) : Run :=
  passes (CodeUnit.compile settings) ((limit settings).toNat + 1) units

/-- Lays units out and compiles every unit in every pass, static or not. -/
def runRecompiling (settings : Settings) (units : List CodeUnit) : Run :=
  passes (CodeUnit.recompile settings) ((limit settings).toNat + 1) units

end Layout
end Mcs51
