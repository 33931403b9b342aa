/-
Points in time.

An instant is a date, a second of that date and a part of a second in nanoseconds, all in
coordinated universal time.  A leap second is the part of the last second of a minute
beyond its first thousand million nanoseconds.

Instants are read from and written to texts such as `2024-01-01T12:30:00.250Z`.  What is
written is always in universal time, with as many digits of the second as are needed: 0, 3, 6
or 9.  A text that is read may give the time at an offset from universal time; it may leave
out leading zeros and may have white space between its parts.
-/
import BuildLens.Text.Blank
import BuildLens.Text.Numeral
import BuildLens.Time.Date

namespace BuildLens

open BuildLens.Text

/-- The number of nanoseconds of a second. -/
def nanosPerSecond : Nat :=
  1000000000

/-- The number of seconds of a day. -/
def secondsPerDay : Nat :=
  86400

/-- A point in time. -/
structure Instant where
  /-- The date. -/
  date : Date
  /-- The second of the day. -/
  second : Nat
  /-- The nanoseconds of the second; those of a leap second follow those of the last second
  of the minute. -/
  nano : Nat
  /-- The second is one of the day. -/
  second_lt : second < secondsPerDay
  /-- There is at most one leap second at a time. -/
  nano_lt : nano < 2 * nanosPerSecond
  /-- A leap second ends a minute. -/
  leap : nanosPerSecond ≤ nano → second % 60 = 59
  deriving DecidableEq

namespace Instant

/-- The date from which clocks count their seconds. -/
def clockStart : Date :=
  ⟨1970, 1, 1, by decide, by decide⟩

/-- The instant at which a clock shows some seconds and a part of a second. -/
def ofClock (seconds nanos : Nat) : Instant where
  date := clockStart.after (seconds / secondsPerDay)
  second := seconds % secondsPerDay
  nano := nanos % nanosPerSecond
  second_lt := Nat.mod_lt _ (by decide)
  nano_lt := by
    have : nanos % nanosPerSecond < nanosPerSecond := Nat.mod_lt _ (by decide)
    omega
  leap h := by
    have : nanos % nanosPerSecond < nanosPerSecond := Nat.mod_lt _ (by decide)
    omega

/-! ## Distance -/

/-- What a leap second that only one of two times of a day has passed adds to their
distance, in seconds. -/
def leapCorrection (a b : Instant) : Int :=
  if b.second < a.second ∧ nanosPerSecond ≤ b.nano then 1
  else if a.second < b.second ∧ nanosPerSecond ≤ a.nano then -1
  else 0

/-- The time from `b` to `a` in nanoseconds. -/
def nanosSince (a b : Instant) : Int :=
  ((a.date.dayNumber - b.date.dayNumber) * secondsPerDay + ((a.second : Int) - b.second) +
      leapCorrection a b) * nanosPerSecond + ((a.nano : Int) - b.nano)

/-! ## Writing -/

/-- The year of a date: four digits, with a sign when they do not suffice. -/
def yearText (year : Int) : List Char :=
  if 0 ≤ year ∧ year ≤ 9999 then zeroPadded 4 year.toNat
  else if 0 ≤ year then '+' :: zeroPadded 4 year.toNat
  else '-' :: zeroPadded 4 (-year).toNat

/-- The part of a second, with the fewest groups of three digits. -/
def fractionText (nano : Nat) : List Char :=
  if nano = 0 then []
  else if nano % 1000000 = 0 then '.' :: zeroPadded 3 (nano / 1000000)
  else if nano % 1000 = 0 then '.' :: zeroPadded 6 (nano / 1000)
  else '.' :: zeroPadded 9 nano

/-- The second of the minute that is shown: 60 in a leap second. -/
def shownSecond (t : Instant) : Nat :=
  if nanosPerSecond ≤ t.nano then 60 else t.second % 60

/-- The text of an instant. -/
def write (t : Instant) : List Char :=
  yearText t.date.year ++ '-' :: zeroPadded 2 t.date.month ++ '-' :: zeroPadded 2 t.date.day ++
    'T' :: zeroPadded 2 (t.second / 3600) ++ ':' :: zeroPadded 2 (t.second / 60 % 60) ++
    ':' :: zeroPadded 2 t.shownSecond ++ fractionText (t.nano % nanosPerSecond) ++ ['Z']

/-! ## Reading -/

/-- The years that a text may speak of, at its own offset and in universal time. -/
def isReadableYear (year : Int) : Bool :=
  -262143 ≤ year && year ≤ 262142

/-- The number at the start of a text, of at least one and at most `width` digits, and what
follows it. -/
def takeNumber (width : Nat) (cs : List Char) : Option (Nat × List Char) :=
  let ds := (cs.take width).takeWhile isAsciiDigit
  if ds.isEmpty then none else some (numeralValue ds, cs.drop ds.length)

/-- What follows a character of a class. -/
def skip (p : Char → Bool) : List Char → Option (List Char)
  | [] => none
  | c :: cs => if p c then some cs else none

/-- The year at the start of a text, and what follows it.  A year of more than four digits
has a sign. -/
def takeYear (cs : List Char) : Option (Int × List Char) :=
  match trimStart isWhite cs with
  | '-' :: cs => (takeNumber cs.length cs).map fun (year, cs) => (-year, cs)
  | '+' :: cs => (takeNumber cs.length cs).map fun (year, cs) => (year, cs)
  | cs => (takeNumber 4 cs).map fun (year, cs) => (year, cs)

/-- One or two digits at the start of a text, and what follows them. -/
def takePart (cs : List Char) : Option (Nat × List Char) :=
  takeNumber 2 (trimStart isWhite cs)

/-- A mark and one or two digits at the start of a text, and what follows them. -/
def takeMarked (mark : Char) (cs : List Char) : Option (Nat × List Char) :=
  (skip (· == mark) (trimStart isWhite cs)).bind takePart

/-- The nanoseconds that the digits after a point stand for; from the tenth digit on they
are too fine to count. -/
def nanosOf (ds : List Char) : Nat :=
  numeralValue ((ds ++ List.replicate 9 '0').take 9)

/-- The part of a second, if there is one, and what follows it. -/
def takeFraction : List Char → Option (Nat × List Char)
  | '.' :: cs =>
    let ds := cs.takeWhile isAsciiDigit
    if ds.isEmpty then none else some (nanosOf ds, cs.dropWhile isAsciiDigit)
  | cs => some (0, cs)

/-- Exactly two digits at the start of a text, and what follows them. -/
def takeTwoDigits : List Char → Option (Nat × List Char)
  | a :: b :: cs =>
    if isAsciiDigit a && isAsciiDigit b then some (numeralValue [a, b], cs) else none
  | _ => none

/-- The hours and minutes at the start of a text in seconds, and what follows them. -/
def takeHoursAndMinutes (cs : List Char) : Option (Int × List Char) := do
  let (hours, cs) ← takeTwoDigits cs
  let (minutes, cs) ← takeTwoDigits (trimStart (fun c => c == ':' || isWhite c) cs)
  if 23 < hours ∨ 59 < minutes then none
  else some ((hours * 3600 + minutes * 60 : Nat), cs)

/-- The offset from universal time in seconds at the start of a text, and what follows
it. -/
def takeOffset (cs : List Char) : Option (Int × List Char) :=
  if (cs.take 3).map Char.toUpper = ['U', 'T', 'C'] then some (0, cs.drop 3)
  else
    match cs with
    | [] => none
    | c :: cs =>
      if c = 'Z' ∨ c = 'z' then some (0, cs)
      else if c = '+' then takeHoursAndMinutes cs
      else if c = '-' ∨ c = '\u2212' then
        (takeHoursAndMinutes cs).map fun (offset, cs) => (-offset, cs)
      else none

/-- A time of day: its second and its nanoseconds.  The second 60 is a leap second. -/
def timeOfDay? (hour minute second nano : Nat) : Option (Nat × Nat) :=
  if 23 < hour ∨ 59 < minute ∨ 60 < second then none
  else if second = 60 then some (hour * 3600 + minute * 60 + 59, nanosPerSecond + nano)
  else some (hour * 3600 + minute * 60 + second, nano)

/-- The instant of a local date and time at an offset of less than a day. -/
def atOffset? (date : Date) (second nano : Nat) (offset : Int) : Option Instant :=
  let utc := (second : Int) - offset
  let (date, second) :=
    if utc < 0 then (date.previous, (utc + secondsPerDay).toNat)
    else if secondsPerDay ≤ utc then (date.next, (utc - secondsPerDay).toNat)
    else (date, utc.toNat)
  if h : second < secondsPerDay ∧ nano < 2 * nanosPerSecond ∧
      (nanosPerSecond ≤ nano → second % 60 = 59) then
    some ⟨date, second, nano, h.1, h.2.1, h.2.2⟩
  else none

/-- The instant that a text stands for.  There may be white space in front of every number
and every mark, but none behind the sign of a year and in front of the fraction; behind the
day there is one `T` or blank. -/
def read (cs : List Char) : Option Instant := do
  let (year, cs) ← takeYear cs
  let (month, cs) ← takeMarked '-' cs
  let (day, cs) ← takeMarked '-' cs
  let cs ← skip (fun c => c == 'T' || c == 't' || c == ' ') cs
  let (hour, cs) ← takePart cs
  let (minute, cs) ← takeMarked ':' cs
  let (second, cs) ← takeMarked ':' cs
  let (nano, cs) ← takeFraction cs
  let (offset, cs) ← takeOffset (trimStart isWhite cs)
  let date ← Date.of? year month day
  let (second, nano) ← timeOfDay? hour minute second nano
  let t ← atOffset? date second nano offset
  if cs.all isWhite && isReadableYear year && isReadableYear t.date.year then some t else none

end Instant

end BuildLens
