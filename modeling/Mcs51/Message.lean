import Mcs51.Message.Argument

/-!
# Messages

A message is an English template with places for arguments, so that a catalogue of another language
could be keyed by the template. Its text is the template with each argument in its place. What does
not fit is shown in the text itself: a place without an argument, a place that cannot be read, and
arguments left over after some place took one.
-/

namespace Mcs51

/-- A template and its arguments. -/
structure Message where
  template : Text
  args : List Arg := []
  deriving Repr, DecidableEq

namespace Message

/-- How far the arguments of a message are used. -/
structure Progress where
  /-- The number of the next argument; the first one has number 0. -/
  next : Nat := 0
  /-- Some place chose an argument by its number. -/
  reordered : Bool := false
  /-- The padding of the last decimal integer. -/
  padding : Option Padding := none
  deriving Repr, DecidableEq

namespace Progress

/-- Moves to a chosen argument; false if there is none with its number. -/
def choose (count : Nat) (p : Progress) : Choice → Progress × Bool
  | .next => (p, true)
  | .numbered n =>
    if 0 < n && n ≤ count then ({ p with next := n - 1, reordered := true }, true)
    else ({ p with reordered := true }, false)
  | .unreadable => ({ p with reordered := true }, false)

/-- The integer that a star takes; none if the argument is no integer or too large. -/
def take (args : List Arg) (p : Progress) : Progress × Option Int :=
  match args[p.next]? with
  | none => (p, none)
  | some arg =>
    let p := { p with next := p.next + 1 }
    match arg with
    | .number n => if n.natAbs ≤ countLimit then (p, some n) else (p, none)
    | .text _ => (p, none)

/-- The width of a place, with the flags that it leaves: a negative one fills on the right. -/
def width (args : List Arg) (p : Progress) (flags : Flags) :
    Extent → Progress × Flags × Option Nat
  | .absent => (p, flags, none)
  | .written n => (p, flags, some n)
  | .taken => match p.take args with
    | (p, none) => (p, flags, none)
    | (p, some n) =>
      if n < 0 then (p, { flags with minus := true, zero := false }, some n.natAbs)
      else (p, flags, some n.natAbs)

/-- The precision of a place; a negative one counts as none. -/
def precision (args : List Arg) (p : Progress) : Extent → Progress × Option Nat
  | .absent => (p, none)
  | .written n => (p, some n)
  | .taken => match p.take args with
    | (p, none) => (p, none)
    | (p, some n) => if n < 0 then (p, none) else (p, some n.natAbs)

end Progress

/-- The complaint about a star without an integer. -/
def starComplaint (place : Place) (width precision : Option Nat) : Text :=
  if place.precision == .taken && precision.isNone then Text.ofString "%!(BADPREC)"
  else if place.width == .taken && width.isNone then Text.ofString "%!(BADWIDTH)"
  else []

/-- The style of a place. With the verb `v` the sign flag is dropped, and `#` is a flag of its own.
-/
def Style.ofPlace (flags : Flags) (width precision : Option Nat) (verb : Nat) : Style :=
  if verb == 'v'.toNat then
    ⟨{ flags with sharp := false, plus := false }, flags.sharp, width, precision⟩
  else ⟨flags, false, width, precision⟩

/-- The complaint about a place with the given verb. -/
def placeComplaint (verb : Nat) (reason : String) : Text :=
  Text.ofString "%!" ++ Text.encodePoint verb ++ Text.ofString reason

/-- The text at a place. -/
def atPlace (args : List Arg) (p : Progress) (place : Place) : Text × Progress :=
  let (p, widthChosen) := p.choose args.length place.widthChoice
  let (p, flags, width) := p.width args place.flags place.width
  let (p, precisionChosen) := p.choose args.length place.precisionChoice
  let (p, precision) := p.precision args place.precision
  let (p, verbChosen) := p.choose args.length place.verbChoice
  match place.verb? with
  | none => (Text.ofString "%!(NOVERB)", p)
  | some verb =>
    if verb == '%'.toNat then (Text.ofString "%", p)
    else if place.misplacedChoice || !(widthChosen && precisionChosen && verbChosen) then
      (placeComplaint verb "(BADINDEX)", p)
    else match args[p.next]? with
      | none => (placeComplaint verb "(MISSING)", { p with next := p.next + 1 })
      | some arg =>
        let (form, padding) := arg.form (.ofPlace flags width precision verb) p.padding verb
        (starComplaint place width precision ++ form, { p with next := p.next + 1, padding })

/-- The arguments with the words for their types. -/
def labelledArgs : Option Padding → List Arg → List Text
  | _, [] => []
  | before, arg :: args =>
    let (label, padding) := arg.labelled {} before
    label :: labelledArgs padding args

/-- The arguments that no place took, if some place took one and none chose its argument. -/
def leftOver (args : List Arg) (p : Progress) : Text :=
  if !p.reordered && p.next < args.length && p.next != 0 then
    Text.ofString "%!(EXTRA "
      ++ Text.joinWith (Text.ofString ", ") (labelledArgs p.padding (args.drop p.next))
      ++ Text.ofString ")"
  else []

/-- The text of the rest of a template. -/
def renderFrom (args : List Arg) : Progress → List Part → Text
  | p, [] => leftOver args p
  | p, .literal b :: rest => b :: renderFrom args p rest
  | p, .place place :: rest =>
    let (text, p) := atPlace args p place
    text ++ renderFrom args p rest

/-- The text of a message. -/
def render (m : Message) : Text := renderFrom m.args {} (parts m.template)

end Message
end Mcs51
