namespace SkidSteer.Toml

def isBlank (c : Char) : Bool := c = ' ' || c = '\t'

/-- What text may hold as it stands: anything but control characters, though a tab will do. -/
def isPlain (c : Char) : Bool := c = '\t' || (0x20 ≤ c.toNat && c ≠ '\x7f')

def digit? (base : Nat) (c : Char) : Option Nat :=
  let n :=
    if c.isDigit then c.toNat - '0'.toNat
    else if 'a' ≤ c ∧ c ≤ 'f' then c.toNat - 'a'.toNat + 10
    else if 'A' ≤ c ∧ c ≤ 'F' then c.toNat - 'A'.toNat + 10
    else base
  if n < base then some n else none

def ofDigits (base : Nat) (digits : List Nat) : Nat := digits.foldl (fun n d => base * n + d) 0

/-- The character with the code of that many hexadecimal digits. -/
def coded? (count : Nat) (s : List Char) : Option Char := do
  let digits ← (s.take count).mapM (digit? 16)
  let code := ofDigits 16 digits
  if digits.length = count ∧ code.isValidChar then some (Char.ofNat code) else none

/-- The character that an escape stands for, and what follows it. -/
def escape? : List Char → Option (Char × List Char)
  | '"' :: rest => some ('"', rest)
  | '\\' :: rest => some ('\\', rest)
  | 'b' :: rest => some ('\x08', rest)
  | 'f' :: rest => some ('\x0c', rest)
  | 'n' :: rest => some ('\n', rest)
  | 'r' :: rest => some ('\r', rest)
  | 't' :: rest => some ('\t', rest)
  | 'u' :: rest => (coded? 4 rest).map (·, rest.drop 4)
  | 'U' :: rest => (coded? 8 rest).map (·, rest.drop 8)
  | _ => none

theorem escape?_length {s rest : List Char} {c : Char} (h : escape? s = some (c, rest)) :
    rest.length < s.length := by
  unfold escape? at h
  split at h
  all_goals first
    | (obtain ⟨_, _, he⟩ := Option.map_eq_some_iff.mp h
       simp only [Prod.mk.injEq] at he
       obtain ⟨_, rfl⟩ := he
       simp only [List.length_drop, List.length_cons]
       omega)
    | (simp only [Option.some.injEq, Prod.mk.injEq] at h
       obtain ⟨_, rfl⟩ := h
       simp)
    | simp at h

/-- Where a line that ends in a backslash goes on: after the blanks and line breaks that follow. -/
def continued? (s : List Char) : Option (List Char) :=
  match s.dropWhile isBlank with
  | '\n' :: rest => some (rest.dropWhile fun c => isBlank c || c = '\n')
  | _ => none

theorem continued?_length {s rest : List Char} (h : continued? s = some rest) :
    rest.length < s.length := by
  unfold continued? at h
  split at h
  · rename_i after hs
    obtain rfl := Option.some.inj h
    have first := (List.dropWhile_sublist (l := s) isBlank).length_le
    have later := (List.dropWhile_sublist (l := after) fun c => isBlank c || c = '\n').length_le
    rw [hs] at first
    simp only [List.length_cons] at first
    omega
  · simp at h

/-- Text on one line up to its mark, and what follows the mark. -/
def line? (mark : Char) (s : List Char) : Option (List Char × List Char) :=
  match s with
  | [] => none
  | c :: rest =>
    if c = mark then some ([], rest)
    else if c = '\\' ∧ mark = '"' then
      match _ : escape? rest with
      | none => none
      | some (meant, after) => (line? mark after).map fun (t, r) => (meant :: t, r)
    else if isPlain c then (line? mark rest).map fun (t, r) => (c :: t, r)
    else none
termination_by s.length
decreasing_by
  · have := escape?_length (by assumption)
    simp only [List.length_cons]
    omega
  · simp

/-- Text up to three of its mark. Up to two more marks that follow belong to it. -/
def block? (mark : Char) (s : List Char) : Option (List Char × List Char) :=
  match s with
  | [] => none
  | c :: rest =>
    if c = mark then
      if [mark, mark].isPrefixOf rest then
        let more := ((rest.drop 2).takeWhile (· == mark)).take 2
        some (more, rest.drop (2 + more.length))
      else (block? mark rest).map fun (t, r) => (mark :: t, r)
    else if c = '\\' ∧ mark = '"' then
      match _ : continued? rest with
      | some after => block? mark after
      | none =>
        match _ : escape? rest with
        | none => none
        | some (meant, after) => (block? mark after).map fun (t, r) => (meant :: t, r)
    else if c = '\n' ∨ isPlain c then (block? mark rest).map fun (t, r) => (c :: t, r)
    else none
termination_by s.length
decreasing_by
  · simp
  · have := continued?_length (by assumption)
    simp only [List.length_cons]
    omega
  · have := escape?_length (by assumption)
    simp only [List.length_cons]
    omega
  · simp

/-- A line break right after the opening marks does not count. -/
def dropFirstBreak : List Char → List Char
  | '\n' :: rest => rest
  | s => s

/-- Text after its first mark: whether it may span lines, what it says, and what follows. -/
def quoted? (mark : Char) (s : List Char) : Option (Bool × List Char × List Char) :=
  if [mark, mark].isPrefixOf s then
    (block? mark (dropFirstBreak (s.drop 2))).map fun (t, r) => (true, t, r)
  else (line? mark s).map fun (t, r) => (false, t, r)

theorem line?_length {mark : Char} {s t rest : List Char} (h : line? mark s = some (t, rest)) :
    rest.length ≤ s.length := by
  fun_induction line? mark s generalizing t with
  | case1 => simp at h
  | case2 r =>
    simp only [Option.some.injEq, Prod.mk.injEq] at h
    obtain ⟨_, rfl⟩ := h
    simp
  | case3 => simp at h
  | case4 c r _ _ meant after he ih =>
    obtain ⟨⟨t, r⟩, hl, he'⟩ := Option.map_eq_some_iff.mp h
    simp only [Prod.mk.injEq] at he'
    obtain ⟨_, rfl⟩ := he'
    have := ih hl
    have := escape?_length he
    simp only [List.length_cons]
    omega
  | case5 c r _ _ _ ih =>
    obtain ⟨⟨t, r⟩, hl, he⟩ := Option.map_eq_some_iff.mp h
    simp only [Prod.mk.injEq] at he
    obtain ⟨_, rfl⟩ := he
    have := ih hl
    simp only [List.length_cons]
    omega
  | case6 => simp at h

theorem block?_length {mark : Char} {s t rest : List Char} (h : block? mark s = some (t, rest)) :
    rest.length ≤ s.length := by
  fun_induction block? mark s generalizing t with
  | case1 => simp at h
  | case2 =>
    simp only [Option.some.injEq, Prod.mk.injEq] at h
    obtain ⟨_, rfl⟩ := h
    simp only [List.length_drop, List.length_cons]
    omega
  | case3 r _ ih =>
    obtain ⟨⟨t, r⟩, hl, he⟩ := Option.map_eq_some_iff.mp h
    simp only [Prod.mk.injEq] at he
    obtain ⟨_, rfl⟩ := he
    have := ih hl
    simp only [List.length_cons]
    omega
  | case4 c r _ _ after hc ih =>
    have := ih h
    have := continued?_length hc
    simp only [List.length_cons]
    omega
  | case5 => simp at h
  | case6 c r _ _ _ meant after he ih =>
    obtain ⟨⟨t, r⟩, hl, he'⟩ := Option.map_eq_some_iff.mp h
    simp only [Prod.mk.injEq] at he'
    obtain ⟨_, rfl⟩ := he'
    have := ih hl
    have := escape?_length he
    simp only [List.length_cons]
    omega
  | case7 c r _ _ _ ih =>
    obtain ⟨⟨t, r⟩, hl, he⟩ := Option.map_eq_some_iff.mp h
    simp only [Prod.mk.injEq] at he
    obtain ⟨_, rfl⟩ := he
    have := ih hl
    simp only [List.length_cons]
    omega
  | case8 => simp at h

theorem quoted?_length {mark : Char} {multiline : Bool} {s t rest : List Char}
    (h : quoted? mark s = some (multiline, t, rest)) : rest.length ≤ s.length := by
  unfold quoted? at h
  split at h
  · obtain ⟨⟨t, r⟩, hl, he⟩ := Option.map_eq_some_iff.mp h
    simp only [Prod.mk.injEq] at he
    obtain ⟨_, _, rfl⟩ := he
    have inner := block?_length hl
    have dropped : ∀ l : List Char, (dropFirstBreak l).length ≤ l.length := by
      intro l
      unfold dropFirstBreak
      split <;> simp
    have := dropped (s.drop 2)
    simp only [List.length_drop] at this
    omega
  · obtain ⟨⟨t, r⟩, hl, he⟩ := Option.map_eq_some_iff.mp h
    simp only [Prod.mk.injEq] at he
    obtain ⟨_, _, rfl⟩ := he
    exact line?_length hl

end SkidSteer.Toml
