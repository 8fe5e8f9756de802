import SkidSteer.Toml.Line

namespace SkidSteer.Toml

open Record (Value Entries)

/-- A header with the entries below it. -/
structure Section where
  header : Key
  repeated : Bool
  entries : Entries

/-- The entries before the first header, and the sections; `entries` are those read since the last
header. -/
def sections? (entries : Entries) : List Line → Option (Entries × List Section)
  | [] => some (entries, [])
  | .entry key value :: rest => do sections? (← insert? entries key value) rest
  | .header key repeated :: rest => do
    let (inner, sections) ← sections? [] rest
    return (entries, ⟨key, repeated, inner⟩ :: sections)

namespace Section

/-- The section as the table at `key` sees it, if it belongs there. -/
def below? (key : String) (s : Section) : Option Section :=
  match s.header with
  | [] => none
  | first :: rest => if first = key then some { s with header := rest } else none

/-- Whether the section is the table itself, rather than one below it. -/
def isOwn (s : Section) : Bool := s.header.isEmpty

/-- The elements of an array of tables: what each holds itself, and the sections below it. The
sections before the first element are returned with them. A plain header for the same table is an
error. -/
def elements? : List Section → Option (List Section × List (Entries × List Section))
  | [] => some ([], [])
  | s :: rest => do
    let (before, elements) ← elements? rest
    if !s.isOwn then return (s :: before, elements)
    else if s.repeated then return ([], (s.entries, before) :: elements)
    else none

/-- The entries of a table without headers of its own, or with one plain header. -/
def own? (sections : List Section) : Option Entries :=
  match sections.filter isOwn with
  | [] => some []
  | [s] => if s.repeated then none else some s.entries
  | _ => none

/-- The value at one key. It is an array where the first section is an element of one. -/
def valueOf? (table? : Entries → List Section → Option Entries) (sections : List Section) :
    Option Value :=
  match sections with
  | [] => none
  | first :: _ =>
    if first.isOwn && first.repeated then do
      let (_, elements) ← elements? sections
      let tables ← elements.mapM fun (entries, below) => table? entries below
      return .array (tables.map (.table .headed))
    else do
      let own ← own? sections
      return .table .headed (← table? own (sections.filter (!·.isOwn)))

/-- The entries of a table with those of the sections below it, whose headers have `depth` parts at
the most. -/
def table? : (depth : Nat) → Entries → List Section → Option Entries
  | 0, entries, _ => some entries
  | depth + 1, entries, sections => do
    let keys := (sections.filterMap (·.header.head?)).eraseDups
    let values ← keys.mapM fun key =>
      valueOf? (table? depth) (sections.filterMap (below? key))
    return entries ++ keys.zip values

end Section

def parse? (document : String) : Option Value := do
  let tokens ← tokens? document
  let (entries, sections) ← sections? [] (← lines? (tokens.length + 1) tokens)
  let depth := (sections.map (·.header.length)).foldl max 0
  return .table .headed (← Section.table? depth entries sections)

end SkidSteer.Toml
