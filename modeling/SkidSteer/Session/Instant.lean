import SkidSteer.Duration

namespace SkidSteer

/-- A point in time, in nanoseconds from the beginning of 1970. -/
structure Instant where
  nanoseconds : Int
  deriving DecidableEq, Repr

structure Date where
  year : Int
  month : Nat
  day : Nat
  deriving DecidableEq, Repr

namespace Instant

/-- Seconds since the session began, and no number before any has. -/
def secondsSince (began : Option Instant) (now : Instant) : Float :=
  (began.bind fun epoch => (TimeSpan.mk (now.nanoseconds - epoch.nanoseconds)).toSeconds?).getD
    (0.0 / 0.0)

def days (i : Instant) : Int := i.nanoseconds.fdiv (86400 * Duration.perSecond)

def nanosecondOfDay (i : Instant) : Nat :=
  (i.nanoseconds.fmod (86400 * Duration.perSecond)).toNat

/-- The date of a day. Years are counted from March here, so that a leap day ends a year. -/
def dateOf (days : Int) : Date :=
  let shifted := days + 719468
  let era := shifted.fdiv 146097
  let dayOfEra := (shifted.fmod 146097).toNat
  let yearOfEra := (dayOfEra - dayOfEra / 1460 + dayOfEra / 36524 - dayOfEra / 146096) / 365
  let dayOfYear := dayOfEra - (365 * yearOfEra + yearOfEra / 4 - yearOfEra / 100)
  let month := (5 * dayOfYear + 2) / 153
  let day := dayOfYear - (153 * month + 2) / 5 + 1
  let year := era * 400 + yearOfEra
  if month < 10 then ⟨year, month + 3, day⟩ else ⟨year + 1, month - 9, day⟩

def padded (width n : Nat) : String :=
  let digits := toString n
  Decimal.zeros (width - digits.length) ++ digits

/-- The time of the day in hours, minutes and seconds. -/
def clock (i : Instant) : List Nat :=
  let second := i.nanosecondOfDay / Duration.perSecond
  [second / 3600, second / 60 % 60, second % 60]

def dateText (separator : String) (i : Instant) : String :=
  let date := dateOf i.days
  separator.intercalate [padded 4 date.year.toNat, padded 2 date.month, padded 2 date.day]

def stamp (i : Instant) : String :=
  dateText "" i ++ "_" ++ String.join (i.clock.map (padded 2))

/-- The fraction of a second in three, six or nine places, if there is one. -/
def fractionText (nanosecond : Nat) : String :=
  if nanosecond = 0 then ""
  else if nanosecond % 1000000 = 0 then "." ++ padded 3 (nanosecond / 1000000)
  else if nanosecond % 1000 = 0 then "." ++ padded 6 (nanosecond / 1000)
  else "." ++ padded 9 nanosecond

def text (i : Instant) : String :=
  dateText "-" i ++ " " ++ ":".intercalate (i.clock.map (padded 2))
    ++ fractionText (i.nanosecondOfDay % Duration.perSecond) ++ " UTC"

end Instant

end SkidSteer
