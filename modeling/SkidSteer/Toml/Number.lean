import SkidSteer.Decimal.Text
import SkidSteer.Record.Value
import SkidSteer.Toml.Token

namespace SkidSteer.Toml

open Record (Value)

/-- A run of digits with its sign, and the characters of the word that follow it. -/
structure Run where
  negative : Bool
  digits : List Nat
  rest : List Char

/-- How a run may be written. -/
structure RunRule where
  base : Nat
  signed : Bool
  leadingZeros : Bool

namespace RunRule

/-- A decimal number, or its whole part. -/
def whole : RunRule := ⟨10, true, false⟩

def fraction : RunRule := ⟨10, false, true⟩

/-- The digits of a number in a base that its first characters name. -/
def based (base : Nat) : RunRule := ⟨base, false, true⟩

def isRunCharacter (rule : RunRule) (c : Char) : Bool := c = '_' || (digit? rule.base c).isSome

/-- Between any two digits one underscore may stand. -/
def separated : List Char → Bool
  | [] => false
  | [c] => c ≠ '_'
  | c :: d :: rest => !(c = '_' && d = '_') && separated (d :: rest)

/-- The longest run at the beginning of a word. -/
def run? (rule : RunRule) (word : List Char) : Option Run :=
  let negative := rule.signed && word.head? = some '-'
  let unsigned := if negative then word.drop 1 else word
  let written := unsigned.takeWhile rule.isRunCharacter
  let digits := written.filterMap (digit? rule.base)
  if written.head? ≠ some '_' ∧ separated written
      ∧ (rule.leadingZeros ∨ digits.length = 1 ∨ digits.head? ≠ some 0) then
    some ⟨negative, digits, unsigned.dropWhile rule.isRunCharacter⟩
  else none

end RunRule

/-- Whole numbers fit in 64 bits. -/
def integer? (rule : RunRule) (word : List Char) : Option Value := do
  let run ← rule.run? word
  let magnitude : Int := ofDigits rule.base run.digits
  let n := if run.negative then -magnitude else magnitude
  let limit : Int := Nat.pow 2 63
  if run.rest = [] ∧ -limit ≤ n ∧ n < limit then some (.integer n) else none

/-- The exponent that ends a number. Its letter may end a word, and its digits are the next one. -/
def exponent? (tail : List Char) (after : List Token) : Option (Int × List Token) :=
  let read (rule : RunRule) (word : List Char) (after : List Token) := do
    let run ← rule.run? word
    let magnitude : Int := ofDigits 10 run.digits
    if run.rest = [] then some (if run.negative then -magnitude else magnitude, after) else none
  match tail with
  | [] => some (0, after)
  | letter :: word =>
    if letter ≠ 'e' ∧ letter ≠ 'E' then none
    else if word ≠ [] then read { RunRule.fraction with signed := true } word after
    else
      match after with
      | .word w :: rest => read .fraction w rest
      | .plus :: .word w :: rest => read .fraction w rest
      | _ => none

/-- A number with a point or an exponent, which has to be finite. -/
def float? (word : List Char) (fraction : Option (List Char)) (after : List Token) :
    Option (Value × List Token) := do
  let run ← RunRule.whole.run? word
  let (places, tail) ← match fraction with
    | none => some ([], run.rest)
    | some w => do
      let part ← RunRule.fraction.run? w
      if run.rest = [] then some (part.digits, part.rest) else none
  let (exponent, after) ← exponent? tail after
  let x := Decimal.toFloat run.negative (ofDigits 10 (run.digits ++ places))
    (exponent - places.length)
  if x.isFinite then some (.float x, after) else none

/-- A number whose first word is given, its plus left out. -/
def number? (word : List Char) (after : List Token) : Option (Value × List Token) :=
  let only (v : Option Value) := v.map (·, after)
  match word with
  | '0' :: 'x' :: digits => only (integer? (.based 16) digits)
  | '0' :: 'o' :: digits => only (integer? (.based 8) digits)
  | '0' :: 'b' :: digits => only (integer? (.based 2) digits)
  | _ =>
    if 'e' ∈ word ∨ 'E' ∈ word then float? word none after
    else
      match after with
      | .period :: .word w :: rest => float? word (some w) rest
      | .period :: _ => none
      | _ =>
        if word = "inf".toList then only (some (.float (1.0 / 0.0)))
        else if word = "-inf".toList then only (some (.float (-1.0 / 0.0)))
        else if word = "nan".toList ∨ word = "-nan".toList then only (some (.float (0.0 / 0.0)))
        else only (integer? .whole word)

/-- Whether somewhere a dash follows the letter of an exponent. -/
def signsExponent : List Char → Bool
  | c :: d :: rest => ((c = 'e' || c = 'E') && d = '-') || signsExponent (d :: rest)
  | _ => false

/-- Whether a word opens a date: it has the letter that parts date and time, or a dash that is
neither its sign nor that of an exponent. -/
def opensDate (word : List Char) : Bool :=
  'T' ∈ word || 't' ∈ word || ('-' ∈ word.drop 1 && !signsExponent word)

/-- An hour may follow a date after one space. -/
def skipHour : List Token → List Token
  | .blank true :: .word _ :: rest => rest
  | after => after

/-- The minutes of a time and all that follows them. -/
def clock? : List Token → Option (List Token)
  | .word _ :: .colon :: .word _ :: rest => do
    let rest ← continuation .period rest
    let rest ← continuation .plus rest
    continuation .colon rest
  | _ => none
where
  /-- After a mark a word has to follow; the mark may be missing. -/
  continuation (mark : Token) : List Token → Option (List Token)
    | [] => some []
    | t :: rest =>
      if t = mark then
        match rest with
        | .word _ :: more => some more
        | _ => none
      else some (t :: rest)

/-- What follows a moment. What a date or a time says is not looked at. -/
def moment? (colonRead : Bool) (after : List Token) : Option (Value × List Token) :=
  let after := skipHour after
  if colonRead then (clock? after).map (Value.moment, ·)
  else
    match after with
    | .colon :: rest => (clock? rest).map (Value.moment, ·)
    | _ => some (.moment, after)

def numberOrMoment? (word : List Char) (after : List Token) : Option (Value × List Token) :=
  if opensDate word then moment? false after
  else
    match after with
    | .colon :: rest => moment? true rest
    | _ => number? word after

end SkidSteer.Toml
