namespace SkidSteer

/-- A 64-bit floating-point word. Two NaNs with different payloads are different words. -/
@[ext] structure Binary64 where
  bits : UInt64
  deriving DecidableEq, Inhabited

namespace Binary64

/-- What a word stands for. A finite word is `significand * 2 ^ exponent`, with its own sign. -/
inductive Reading where
  | nan
  | infinite (negative : Bool)
  | finite (negative : Bool) (significand : Nat) (exponent : Int)
  deriving DecidableEq

def negative (w : Binary64) : Bool := Nat.pow 2 63 ≤ w.bits.toNat

def exponentField (w : Binary64) : Nat := w.bits.toNat / Nat.pow 2 52 % Nat.pow 2 11

def fractionField (w : Binary64) : Nat := w.bits.toNat % Nat.pow 2 52

def isNaN (w : Binary64) : Bool := w.exponentField == 2047 && w.fractionField != 0

def read (w : Binary64) : Reading :=
  if w.exponentField = 2047 then
    if w.fractionField = 0 then .infinite w.negative else .nan
  else if w.exponentField = 0 then .finite w.negative w.fractionField (-1074)
  else .finite w.negative (Nat.pow 2 52 + w.fractionField) (w.exponentField - 1075)

/-- The exponent that the last place of `significand * 2 ^ exponent` has in a word: 53 digits are
kept, and none below the smallest subnormal. -/
def lastPlace (significand : Nat) (exponent : Int) : Int :=
  max (exponent + (significand.log2 + 1 : Nat) - 53) (-1074)

/-- The word of `significand * 2 ^ exponent`, for a value that some finite word has. -/
def ofFinite (negative : Bool) (significand : Nat) (exponent : Int) : Binary64 :=
  let last := lastPlace significand exponent
  let scaled := if last ≤ exponent then significand <<< (exponent - last).toNat
    else significand >>> (last - exponent).toNat
  let magnitude := if scaled < Nat.pow 2 52 then scaled
    else (last + 1075).toNat * Nat.pow 2 52 + (scaled - Nat.pow 2 52)
  ⟨UInt64.ofNat (if negative then Nat.pow 2 63 + magnitude else magnitude)⟩

/-- Only the sign changes, of a NaN too. -/
def neg (w : Binary64) : Binary64 := ⟨w.bits ^^^ 0x8000000000000000⟩

instance : Neg Binary64 := ⟨neg⟩

def toFloat (w : Binary64) : Float := Float.ofBits w.bits

def ofFloat (x : Float) : Binary64 := ⟨x.toBits⟩

end Binary64

end SkidSteer
