import Polarity.Yaml.Number

/-!
# Times in YAML

A plain scalar may be written as a date, or as a date and a time of day:

    2006-1-2   2006-1-2 15:4:5.9   2006-1-2T15:4:5.9Z   2006-1-2t15:4:5.9+07:00

Months, days, hours, minutes and seconds have one or two digits and are in their
ranges.

* `Time.read?`: the time that is written.
-/

namespace Polarity.Yaml

/-- What a time of day is counted from. -/
inductive Zone where
  /-- No zone, or the letter for none. -/
  | universal
  /-- An offset, in seconds. -/
  | offset (seconds : Int)
  deriving DecidableEq, Repr

/-- A time, in seconds from a fixed day on, and the zone it is given in. -/
structure Time where
  seconds : Int
  nanoseconds : Nat
  zone : Zone
  deriving DecidableEq, Repr

/-- Whether a zone is the same one whenever it is written: only full hours from
twelve before to fourteen after are. -/
def Zone.isCommon : Zone → Bool
  | .universal => true
  | .offset seconds =>
    let hours := seconds.tdiv 3600
    hours * 3600 == seconds && -12 ≤ hours && hours ≤ 14

/-- Whether two times count as the same key. -/
def Time.same (t u : Time) : Bool := t = u && t.zone.isCommon

/-- Reads a number of one or two digits. -/
def shortNumber? : Text → Option (Nat × Text)
  | a :: b :: rest =>
    if !isDigit a then none
    else if isDigit b then some (digitsValue [a, b], rest)
    else some (digitsValue [a], b :: rest)
  | [a] => if isDigit a then some (digitsValue [a], []) else none
  | [] => none

/-- Drops a byte that must come first. -/
def dropByte? (b : UInt8) : Text → Option Text
  | c :: rest => if c = b then some rest else none
  | [] => none

/-- Whether a year has a day more. -/
def isLeapYear (year : Nat) : Bool := year % 4 = 0 && (year % 100 != 0 || year % 400 = 0)

/-- The number of days of a month. -/
def daysIn (year month : Nat) : Nat :=
  if month = 2 then if isLeapYear year then 29 else 28
  else if month = 4 || month = 6 || month = 9 || month = 11 then 30
  else 31

/-- The number of days from the beginning of the year zero to the beginning of a
year. -/
def daysBefore (year : Nat) : Nat :=
  365 * year + (year + 3) / 4 - (year + 99) / 100 + (year + 399) / 400

/-- The number of days from the beginning of the year zero to a day. -/
def dayNumber (year month day : Nat) : Nat :=
  (List.range (month - 1)).foldl (fun days m => days + daysIn year (m + 1)) (daysBefore year) + (day - 1)

/-- Reads a date, as the number of the day. -/
def date? (t : Text) : Option (Nat × Text) := do
  let digits := t.takeWhile isDigit
  if digits.length != 4 then none
  let year := digitsValue digits
  let t ← dropByte? (Text.byte '-') (t.dropWhile isDigit)
  let (month, t) ← shortNumber? t
  let t ← dropByte? (Text.byte '-') t
  let (day, t) ← shortNumber? t
  if 1 ≤ month && month ≤ 12 && 1 ≤ day && day ≤ daysIn year month then
    some (dayNumber year month day, t)
  else none

/-- Reads a fraction of a second, if there is one, up to its ninth digit. -/
def fraction (t : Text) : Nat × Text :=
  match t with
  | point :: rest =>
    let digits := rest.takeWhile isDigit
    if (point = Text.byte '.' || point = Text.byte ',') && !digits.isEmpty then
      (digitsValue ((digits ++ List.replicate 9 (Text.byte '0')).take 9), rest.dropWhile isDigit)
    else (0, t)
  | [] => (0, [])

/-- Reads a time of day, in seconds and nanoseconds. -/
def clock? (t : Text) : Option (Nat × Nat × Text) := do
  let (hour, t) ← shortNumber? t
  let t ← dropByte? (Text.byte ':') t
  let (minute, t) ← shortNumber? t
  let t ← dropByte? (Text.byte ':') t
  let (second, t) ← shortNumber? t
  if hour < 24 && minute < 60 && second < 60 then
    let (nanoseconds, t) := fraction t
    some ((hour * 60 + minute) * 60 + second, nanoseconds, t)
  else none

/-- Reads a time zone. -/
def zone? : Text → Option Zone
  | [0x5A] => some .universal
  | [sign, a, b, colon, c, d] =>
    let hours := digitsValue [a, b]
    let minutes := digitsValue [c, d]
    let seconds : Int := ((hours * 60 + minutes) * 60 : Nat)
    if colon = Text.byte ':' && [a, b, c, d].all isDigit && hours ≤ 24 && minutes ≤ 60 then
      if sign = Text.byte '+' then some (.offset seconds)
      else if sign = Text.byte '-' then some (.offset (-seconds))
      else none
    else none
  | _ => none

namespace Time

/-- The time at which the clocks of a zone show a time of a day. -/
def ofClock (day seconds nanoseconds : Nat) (zone : Zone) : Time :=
  let shown : Int := (day * 86400 + seconds : Nat)
  match zone with
  | .universal => ⟨shown, nanoseconds, zone⟩
  | .offset offset => ⟨shown - offset, nanoseconds, zone⟩

/-- Reads a time of day after the given mark, with a time zone. -/
def zonedAfter? (day : Nat) (mark : UInt8) (t : Text) : Option Time := do
  let (seconds, nanoseconds, rest) ← clock? (← dropByte? mark t)
  return ofClock day seconds nanoseconds (← zone? rest)

/-- Reads a time of day after spaces. -/
def spaced? (day : Nat) (t : Text) : Option Time := do
  let t ← dropByte? (Text.byte ' ') t
  let (seconds, nanoseconds, rest) ← clock? (t.dropWhile (· == Text.byte ' '))
  if rest.isEmpty then some (ofClock day seconds nanoseconds .universal) else none

/-- Reads a date, or a date and a time of day. -/
def read? (t : Text) : Option Time := do
  let (day, rest) ← date? t
  if rest.isEmpty then some (ofClock day 0 0 .universal)
  else
    zonedAfter? day (Text.byte 'T') rest <|> zonedAfter? day (Text.byte 't') rest <|>
      spaced? day rest

end Time

end Polarity.Yaml
