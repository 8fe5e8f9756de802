import SkidSteer.Decimal.Text

namespace SkidSteer

structure Duration where
  nanoseconds : Nat
  deriving DecidableEq, Repr

namespace Duration

def perSecond : Nat := 1000000000

def zero : Duration := ⟨0⟩

def seconds (d : Duration) : Nat := d.nanoseconds / perSecond

def subsecond (d : Duration) : Nat := d.nanoseconds % perSecond

/-- The nearest whole nanosecond, a half to the even one. A number of seconds that is not finite and
above zero gives no time at all; nothing is given from `2 ^ 64` seconds on. -/
def ofSeconds? (x : Float) : Option Duration :=
  match (Binary64.ofFloat x).read with
  | .finite false significand exponent =>
    let (numerator, denominator) := Binary64.fraction significand exponent
    if Nat.pow 2 64 * denominator ≤ numerator then none
    else some ⟨Binary64.roundHalfEven (numerator * perSecond) denominator⟩
  | _ => some zero

def trimZeros (digits : List Char) : List Char :=
  (digits.reverse.dropWhile (· == '0')).reverse

/-- `whole` and the fraction `part` of a unit that holds `10 ^ places` of them. -/
def mixedText (whole part places : Nat) : String :=
  let digits := (toString part).toList
  let fraction := trimZeros (List.replicate (places - digits.length) '0' ++ digits)
  toString whole ++ (if fraction.isEmpty then "" else "." ++ String.ofList fraction)

/-- In the largest unit that is not longer than the span. -/
def text (d : Duration) : String :=
  if perSecond ≤ d.nanoseconds then mixedText d.seconds d.subsecond 9 ++ "s"
  else if 1000000 ≤ d.nanoseconds then
    mixedText (d.nanoseconds / 1000000) (d.nanoseconds % 1000000) 6 ++ "ms"
  else if 1000 ≤ d.nanoseconds then
    mixedText (d.nanoseconds / 1000) (d.nanoseconds % 1000) 3 ++ "µs"
  else toString d.nanoseconds ++ "ns"

end Duration

/-- A span between two instants, which may run backwards. -/
structure TimeSpan where
  nanoseconds : Int
  deriving DecidableEq, Repr

namespace TimeSpan

/-- Spans reach as far as `2 ^ 63 - 1` milliseconds either way. -/
def limit : Int := (Nat.pow 2 63 - 1) * 1000000

/-- `nanoseconds` adds to the seconds and is less than one of them. -/
def ofParts? (seconds : Int) (nanoseconds : Nat) : Option TimeSpan :=
  let total := seconds * Duration.perSecond + nanoseconds
  if nanoseconds < Duration.perSecond ∧ -limit ≤ total ∧ total ≤ limit then some ⟨total⟩ else none

/-- The span in seconds, unless its nanoseconds do not fit 64 bits. -/
def toSeconds? (t : TimeSpan) : Option Float :=
  let limit : Int := Nat.pow 2 63
  if -limit ≤ t.nanoseconds ∧ t.nanoseconds < limit then
    some (Float.ofInt t.nanoseconds / Float.ofNat Duration.perSecond)
  else none

end TimeSpan

end SkidSteer
