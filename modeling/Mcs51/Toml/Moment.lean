import Mcs51.Text.Decimal

/-!
# Dates and times

A date, a time of day, both, or both with an offset from universal time. A date must exist, a day
has 24 hours of 60 minutes of 60 seconds, and seconds may have a fraction.
-/

namespace Mcs51.Toml

structure Date where
  year : Nat
  month : Nat
  day : Nat
  deriving Repr, DecidableEq

structure TimeOfDay where
  hour : Nat
  minute : Nat
  second : Nat
  nanosecond : Nat
  deriving Repr, DecidableEq

/-- The offset of a time from universal time. -/
inductive Offset where
  | universal
  | minutes (n : Int)
  deriving Repr, DecidableEq

inductive Moment where
  | offset (day : Date) (clock : TimeOfDay) (zone : Offset)
  | dateTime (day : Date) (clock : TimeOfDay)
  | date (day : Date)
  | time (clock : TimeOfDay)
  deriving Repr, DecidableEq

/-! ## The calendar -/

def isLeapYear (year : Nat) : Bool := year % 4 == 0 && (year % 100 != 0 || year % 400 == 0)

def daysIn (year month : Nat) : Nat :=
  if month == 2 then (if isLeapYear year then 29 else 28)
  else if month == 4 || month == 6 || month == 9 || month == 11 then 30
  else 31

/-- The calendar has the day. -/
def Date.isReal (d : Date) : Bool :=
  1 ≤ d.month && d.month ≤ 12 && 1 ≤ d.day && d.day ≤ daysIn d.year d.month

/-! ## Reading -/

/-- A number of the given count of digits, and the text after it. -/
def digits? (count : Nat) (t : Text) : Option (Nat × Text) :=
  let digits := t.take count
  if digits.length == count && digits.all Text.isDigit then
    some (Text.valueOfDigits digits, t.drop count)
  else none

/-- The text after a byte. -/
def expect? (b : UInt8) (t : Text) : Option Text :=
  match t with
  | c :: rest => if c == b then some rest else none
  | [] => none

def date? (t : Text) : Option (Date × Text) := do
  let (year, t) ← digits? 4 t
  let t ← expect? '-'.toUInt8 t
  let (month, t) ← digits? 2 t
  let t ← expect? '-'.toUInt8 t
  let (day, t) ← digits? 2 t
  let d : Date := ⟨year, month, day⟩
  if d.isReal then some (d, t) else none

/-- The nanoseconds of the digits of a fraction; what they do not reach is dropped. -/
def nanoseconds (digits : Text) : Nat :=
  Text.valueOfDigits (digits.take 9) * Nat.pow 10 (9 - digits.length)

/-- The fraction of a second, if one follows. -/
def fraction (t : Text) : Nat × Text :=
  match t with
  | b :: rest =>
    let digits := rest.takeWhile Text.isDigit
    if b == '.'.toUInt8 && !digits.isEmpty then (nanoseconds digits, rest.dropWhile Text.isDigit)
    else (0, t)
  | [] => (0, t)

def timeOfDay? (t : Text) : Option (TimeOfDay × Text) := do
  let (hour, t) ← digits? 2 t
  let t ← expect? ':'.toUInt8 t
  let (minute, t) ← digits? 2 t
  let t ← expect? ':'.toUInt8 t
  let (second, t) ← digits? 2 t
  let (nanosecond, t) := fraction t
  if hour < 24 && minute < 60 && second < 60 then some (⟨hour, minute, second, nanosecond⟩, t)
  else none

/-- An offset that ends the text. -/
def offset? (t : Text) : Option Offset :=
  match t with
  | [] => none
  | b :: rest =>
    if b == 'Z'.toUInt8 then (if rest.isEmpty then some .universal else none)
    else if b == '+'.toUInt8 || b == '-'.toUInt8 then do
      let (hours, rest) ← digits? 2 rest
      let rest ← expect? ':'.toUInt8 rest
      let (minutes, rest) ← digits? 2 rest
      let size : Int := hours * 60 + minutes
      if hours ≤ 24 && minutes ≤ 60 && rest.isEmpty then
        some (.minutes (if b == '-'.toUInt8 then -size else size))
      else none
    else none

/-- The bytes of a date or time in their standard forms. -/
def standardByte (b : UInt8) : UInt8 :=
  if b == 'z'.toUInt8 then 'Z'.toUInt8
  else if b == 't'.toUInt8 || b == 0x20 then 'T'.toUInt8
  else b

/-- Reads a date or time. A small letter or a space may stand for the letters between its parts. -/
def Moment.read? (t : Text) : Option Moment :=
  let t := t.map standardByte
  match date? t with
  | some (day, []) => some (.date day)
  | some (day, rest) => do
    let rest ← expect? 'T'.toUInt8 rest
    let (clock, rest) ← timeOfDay? rest
    if rest.isEmpty then return .dateTime day clock
    return .offset day clock (← offset? rest)
  | none => match timeOfDay? t with
    | some (clock, []) => some (.time clock)
    | _ => none

/-! ## Text -/

/-- A number with zeros in front up to a width. -/
def padded (width n : Nat) : Text :=
  let digits := Text.ofNat n
  List.replicate (width - digits.length) 0x30 ++ digits

def Date.text (d : Date) : Text :=
  padded 4 d.year ++ Text.ofString "-" ++ padded 2 d.month ++ Text.ofString "-" ++ padded 2 d.day

def TimeOfDay.text (t : TimeOfDay) : Text :=
  padded 2 t.hour ++ Text.ofString ":" ++ padded 2 t.minute ++ Text.ofString ":"
    ++ padded 2 t.second
    ++ (if t.nanosecond == 0 then []
        else '.'.toUInt8 :: ((padded 9 t.nanosecond).reverse.dropWhile (· == 0x30)).reverse)

/-- Hours and minutes with their sign. -/
def offsetText (n : Int) : Text :=
  (if n < 0 then Text.ofString "-" else Text.ofString "+") ++ padded 2 (n.natAbs / 60)
    ++ padded 2 (n.natAbs % 60)

/-- The offset and the name of its zone; one without a name has its offset for one. -/
def Offset.text : Offset → Text
  | .universal => "+0000 UTC"
  | .minutes n =>
    if n == 0 then Text.ofString "+0000 UTC" else offsetText n ++ Text.ofString " " ++ offsetText n

/-- The text of a date or time: all its parts, those that it lacks at their start. -/
def Moment.text : Moment → Text
  | .offset day clock zone =>
    day.text ++ Text.ofString " " ++ clock.text ++ Text.ofString " " ++ zone.text
  | .dateTime day clock =>
    day.text ++ Text.ofString " " ++ clock.text ++ Text.ofString " +0000 datetime-local"
  | .date day => day.text ++ Text.ofString " 00:00:00 +0000 date-local"
  | .time clock => Text.ofString "0000-01-01 " ++ clock.text ++ Text.ofString " +0000 time-local"

end Mcs51.Toml
