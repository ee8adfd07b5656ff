import Mcs51.Complaint
import Mcs51.NameTable

/-!
# Problems and reports

A finding is a complaint with its severity and its cause: a fragment of the source and where it
stands. A problem is a finding as it is listed, with its text and its file. A report collects
problems and lists them in a fixed order: by severity, path, line and message, those that agree in
all four in the order of reporting.
-/

namespace Mcs51

/-! ## Severity -/

/-- How bad a problem is; a lower code is worse. -/
structure Severity where
  code : Int
  deriving Repr, DecidableEq

namespace Severity

def error : Severity := ⟨0⟩
def warning : Severity := ⟨1⟩
def information : Severity := ⟨2⟩

/-- The names of the severities. -/
def table : NameTable := ⟨"Severity", [(0, "error"), (1, "warning"), (2, "information")]⟩

def name (s : Severity) : Text := table.name s.code

end Severity

/-! ## Findings -/

/-- A place in a source: a path, which may be empty, and a line counted from one. -/
structure Position where
  path : Text := []
  line : Int := 0
  deriving Repr, DecidableEq

/-- What a problem is about: a fragment of text, and its place if it has one. -/
structure Cause where
  text : Text
  position : Option Position := none
  deriving Repr, DecidableEq

/-- A complaint about a fragment at a place. -/
structure Finding where
  severity : Severity
  complaint : Complaint
  text : Text
  position : Position
  deriving Repr, DecidableEq

/-- An error about a fragment. -/
def Finding.error (complaint : Complaint) (text : Text) (position : Position) : Finding :=
  ⟨.error, complaint, text, position⟩

/-- A warning about a fragment. -/
def Finding.warning (complaint : Complaint) (text : Text) (position : Position) : Finding :=
  ⟨.warning, complaint, text, position⟩

/-! ## Problems -/

/-- A problem as it is listed. -/
structure Problem where
  severity : Severity
  message : Text
  path : Text := []
  line : Int := 0
  cause : Option Text := none
  deriving Repr, DecidableEq

namespace Problem

/-- A problem with the place of its cause; `path` is for a cause that knows no path. -/
def of (path : Text) (severity : Severity) (cause : Option Cause) (message : Text) : Problem :=
  match cause with
  | none => { severity, message, path }
  | some c => match c.position with
    | none => { severity, message, path, cause := some c.text }
    | some at_ =>
      { severity, message, path := if at_.path.isEmpty then path else at_.path, line := at_.line,
        cause := some c.text }

/-- The problem of a finding; `path` is for a finding that knows no path. -/
def ofFinding (path : Text) (f : Finding) : Problem :=
  of path f.severity (some ⟨f.text, some f.position⟩) f.complaint.message.render

/-- The order of problems: by severity, path, line and message. -/
def order (a b : Problem) : Ordering :=
  (compare a.severity.code b.severity.code).then
    ((Text.order a.path b.path).then
      ((compare a.line b.line).then (Text.order a.message b.message)))

/-- `a` may be listed before `b`. -/
def le (a b : Problem) : Bool := (order a b).isLE

/-- The place in front of a problem's text. -/
def placeText (p : Problem) : Text :=
  if p.path.isEmpty then
    if 0 < p.line then Text.ofString "line " ++ Text.ofInt p.line ++ Text.ofString ": " else []
  else if 0 < p.line then
    p.path ++ Text.ofString ":" ++ Text.ofInt p.line ++ Text.ofString ": "
  else p.path ++ Text.ofString ": "

/-- The text of a problem as it is printed. -/
def text (p : Problem) : Text :=
  p.placeText ++ p.severity.name ++ Text.ofString ": " ++ p.message ++
    match p.cause with
    | none => []
    | some c => (Message.mk " (at '%v')" [c]).render

end Problem

/-! ## Reports -/

/-- The problems of a run, in the order of reporting. -/
structure Report where
  /-- The path of a problem whose cause knows none. -/
  path : Text := []
  problems : List Problem := []
  deriving Repr, DecidableEq

/-- The errors of a run, counted. -/
structure RunFailed where
  errors : Nat
  deriving Repr, DecidableEq

/-- The wording of a failed run. -/
def RunFailed.message (f : RunFailed) : Text :=
  if f.errors == 1 then (Message.mk "assembly failed with 1 error" []).render
  else (Message.mk "assembly failed with %d errors" [f.errors]).render

namespace Report

/-- Adds a problem as it is. -/
def report (r : Report) (p : Problem) : Report := { r with problems := r.problems ++ [p] }

/-- Adds a problem with the place of its cause. -/
def add (r : Report) (severity : Severity) (cause : Option Cause) (m : Message) : Report :=
  r.report (Problem.of r.path severity cause m.render)

/-- Adds problems as they are. -/
def merge (r : Report) (problems : List Problem) : Report :=
  { r with problems := r.problems ++ problems }

/-- Adds findings. -/
def addFindings (r : Report) (findings : List Finding) : Report :=
  r.merge (findings.map (Problem.ofFinding r.path))

/-- The number of problems of a severity. -/
def count (r : Report) (severity : Severity) : Nat :=
  r.problems.countP fun p => p.severity == severity

/-- Some problem is an error. -/
def hasErrors (r : Report) : Bool := r.count .error != 0

/-- The problems in listing order. -/
def sorted (r : Report) : List Problem := r.problems.mergeSort Problem.le

/-- The failure of a run with errors. -/
def failure? (r : Report) : Option RunFailed :=
  if r.hasErrors then some ⟨r.count .error⟩ else none

end Report
end Mcs51
