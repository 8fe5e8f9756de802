import SkidSteer.Toml.Quote

namespace SkidSteer.Toml

inductive Token where
  | newline
  /-- A run of spaces and tabs, and whether it is one space. -/
  | blank (oneSpace : Bool)
  | comment
  | equals
  | period
  | comma
  | colon
  | plus
  | leftBrace
  | rightBrace
  | leftBracket
  | rightBracket
  | word (w : List Char)
  | text (multiline : Bool) (s : String)
  deriving DecidableEq, Repr

/-- Letters and digits are those of the basic alphabet. -/
def isWordCharacter (c : Char) : Bool := c.isAlphanum || c = '_' || c = '-'

def isCommentCharacter (c : Char) : Bool := c = '\t' || 0x20 ≤ c.toNat

namespace Token

def mark? : Char → Option Token
  | '\n' => some .newline
  | '=' => some .equals
  | '.' => some .period
  | ',' => some .comma
  | ':' => some .colon
  | '+' => some .plus
  | '{' => some .leftBrace
  | '}' => some .rightBrace
  | '[' => some .leftBracket
  | ']' => some .rightBracket
  | _ => none

/-- The first token, and what follows it. -/
def next? : List Char → Option (Token × List Char)
  | [] => none
  | c :: rest =>
    match mark? c with
    | some token => some (token, rest)
    | none =>
      if isBlank c then
        some (.blank (c = ' ' && (rest.takeWhile isBlank).isEmpty), rest.dropWhile isBlank)
      else if c = '#' then some (.comment, rest.dropWhile isCommentCharacter)
      else if c = '"' || c = '\x27' then
        (quoted? c rest).map fun (multiline, s, after) => (.text multiline (String.ofList s), after)
      else if isWordCharacter c then
        some (.word (c :: rest.takeWhile isWordCharacter), rest.dropWhile isWordCharacter)
      else none

end Token

/-- A line break of two characters counts as one. -/
def foldBreaks : List Char → List Char
  | '\r' :: '\n' :: rest => '\n' :: foldBreaks rest
  | c :: rest => c :: foldBreaks rest
  | [] => []

/-- A mark of the byte order may open a document. -/
def dropOrderMark : List Char → List Char
  | '\ufeff' :: rest => rest
  | cs => cs

theorem Token.next?_length {s rest : List Char} {t : Token} (h : next? s = some (t, rest)) :
    rest.length < s.length := by
  cases s with
  | nil => simp [next?] at h
  | cons c r =>
    have shorter (p : Char → Bool) : (r.dropWhile p).length < (c :: r).length :=
      Nat.lt_succ_of_le (List.dropWhile_sublist p).length_le
    simp only [next?] at h
    split at h
    · simp only [Option.some.injEq, Prod.mk.injEq] at h
      obtain ⟨_, rfl⟩ := h
      simp
    · split at h
      · simp only [Option.some.injEq, Prod.mk.injEq] at h
        obtain ⟨_, rfl⟩ := h
        exact shorter _
      · split at h
        · simp only [Option.some.injEq, Prod.mk.injEq] at h
          obtain ⟨_, rfl⟩ := h
          exact shorter _
        · split at h
          · obtain ⟨⟨multiline, text, after⟩, hq, he⟩ := Option.map_eq_some_iff.mp h
            simp only [Prod.mk.injEq] at he
            obtain ⟨_, rfl⟩ := he
            have := quoted?_length hq
            simp only [List.length_cons]
            omega
          · split at h
            · simp only [Option.some.injEq, Prod.mk.injEq] at h
              obtain ⟨_, rfl⟩ := h
              exact shorter _
            · simp at h

/-- All tokens, if the characters are tokens throughout. -/
def scan? (s : List Char) : Option (List Token) :=
  if s = [] then some []
  else
    match _ : Token.next? s with
    | none => none
    | some (t, rest) => (scan? rest).map (t :: ·)
termination_by s.length
decreasing_by exact Token.next?_length (by assumption)

def tokens? (document : String) : Option (List Token) :=
  scan? (foldBreaks (dropOrderMark document.toList))

end SkidSteer.Toml
