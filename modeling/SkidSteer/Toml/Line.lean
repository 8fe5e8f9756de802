import SkidSteer.Toml.Number

namespace SkidSteer.Toml

open Record (Value Entries)

abbrev Key := List String

inductive Line where
  /-- A header in one pair of brackets, or in two for an element of an array. -/
  | header (key : Key) (repeated : Bool)
  | entry (key : Key) (value : Value)

def skipBlank : List Token → List Token
  | .blank _ :: rest => rest
  | tokens => tokens

def part? : List Token → Option (String × List Token)
  | .word w :: rest => some (String.ofList w, rest)
  | .text false s :: rest => some (s, rest)
  | _ => none

/-- The parts of a key, with points between them; `more` bounds their number. -/
def key? (more : Nat) (tokens : List Token) : Option (Key × List Token) := do
  let (first, rest) ← part? tokens
  match more, skipBlank rest with
  | more + 1, .period :: rest =>
    let (others, rest) ← key? more (skipBlank rest)
    return (first :: others, rest)
  | _, rest => return ([first], rest)

/-- The value under `key` and nothing else changed, at the first place where it stands. -/
def setFirst (key : String) (value : Value) : Entries → Entries
  | [] => []
  | entry :: rest =>
    if entry.1 = key then (key, value) :: rest else entry :: setFirst key value rest

/-- The entries with one more under a key of several parts. It may go on only into tables that such
keys have made. -/
def insert? (entries : Entries) : Key → Value → Option Entries
  | [], _ => none
  | [last], value => some (entries ++ [(last, value)])
  | first :: rest, value =>
    match entries.lookup first with
    | none => (insert? [] rest value).map fun inner => entries ++ [(first, .table .dotted inner)]
    | some (.table .dotted inner) =>
      (insert? inner rest value).map fun inner => setFirst first (.table .dotted inner) entries
    | some _ => none

/-- What follows blanks, line breaks and comments; `more` bounds their number. -/
def skipLines : (more : Nat) → List Token → Option (List Token)
  | 0, tokens => some tokens
  | more + 1, tokens =>
    match skipBlank tokens with
    | .newline :: rest => skipLines more rest
    | .comment :: .newline :: rest => skipLines more rest
    | .comment :: _ => none
    | rest => some rest

/-- Whether a word is that of a number, rather than a name. -/
def opensNumber (word : List Char) : Bool :=
  word = "inf".toList || word = "nan".toList || word.head?.any fun c => c = '-' || c.isDigit

mutual

/-- A value, and what follows it. `fuel` bounds how many values and brackets are read. -/
def value? : (fuel : Nat) → List Token → Option (Value × List Token)
  | 0, _ => none
  | fuel + 1, tokens =>
    match tokens with
    | .text _ s :: rest => some (.text s, rest)
    | .plus :: .word w :: rest => number? w rest
    | .word w :: rest =>
      if w = "true".toList then some (.boolean true, rest)
      else if w = "false".toList then some (.boolean false, rest)
      else if opensNumber w then numberOrMoment? w rest
      else none
    | .leftBrace :: rest =>
      match skipBlank rest with
      | .rightBrace :: rest => some (.table .braced [], rest)
      | rest => (pairs? fuel [] rest).map fun (entries, rest) => (.table .braced entries, rest)
    | .leftBracket :: rest =>
      (items? fuel rest).map fun (items, rest) => (.array items, rest)
    | _ => none

/-- Keys and values up to the brace that closes a table, added to `entries`. -/
def pairs? : (fuel : Nat) → Entries → List Token → Option (Entries × List Token)
  | 0, _, _ => none
  | fuel + 1, entries, tokens => do
    let (key, value, rest) ← pair? fuel tokens
    let entries ← insert? entries key value
    match skipBlank rest with
    | .rightBrace :: rest => some (entries, rest)
    | .comma :: rest => pairs? fuel entries (skipBlank rest)
    | _ => none

def pair? : (fuel : Nat) → List Token → Option (Key × Value × List Token)
  | 0, _ => none
  | fuel + 1, tokens => do
    let (key, rest) ← key? tokens.length tokens
    match skipBlank rest with
    | .equals :: rest => do
      let (value, rest) ← value? fuel (skipBlank rest)
      return (key, value, rest)
    | _ => none

/-- The items up to the bracket that closes an array. -/
def items? : (fuel : Nat) → List Token → Option (List Value × List Token)
  | 0, _ => none
  | fuel + 1, tokens => do
    match ← skipLines tokens.length tokens with
    | .rightBracket :: rest => some ([], rest)
    | rest => do
      let (item, rest) ← value? fuel rest
      match ← skipLines rest.length rest with
      | .comma :: rest => do
        let (items, rest) ← items? fuel rest
        return (item :: items, rest)
      | .rightBracket :: rest => some ([item], rest)
      | _ => none

end

/-- What follows the end of a line, before which a comment may stand. -/
def endLine? (tokens : List Token) : Option (List Token) :=
  match skipBlank tokens with
  | [] | [.comment] => some []
  | .newline :: rest | .comment :: .newline :: rest => some rest
  | _ => none

def header? (tokens : List Token) : Option (Line × List Token) := do
  let (repeated, rest) := match tokens with
    | .leftBracket :: rest => (true, rest)
    | rest => (false, rest)
  let (key, rest) ← key? rest.length (skipBlank rest)
  match repeated, skipBlank rest with
  | true, .rightBracket :: .rightBracket :: rest => return (.header key true, ← endLine? rest)
  | false, .rightBracket :: rest => return (.header key false, ← endLine? rest)
  | _, _ => none

/-- Enough for any value in a document of so many tokens. -/
def enough (tokens : Nat) : Nat := 3 * tokens + 3

/-- The lines of a document; `more` bounds their number. -/
def lines? : (more : Nat) → List Token → Option (List Line)
  | 0, _ => none
  | more + 1, tokens => do
    match skipBlank tokens with
    | [] | [.comment] => some []
    | .newline :: rest | .comment :: .newline :: rest => lines? more rest
    | .leftBracket :: rest => do
      let (line, rest) ← header? rest
      return line :: (← lines? more rest)
    | rest => do
      let (key, value, rest) ← pair? (enough rest.length) rest
      return .entry key value :: (← lines? more (← endLine? rest))

end SkidSteer.Toml
