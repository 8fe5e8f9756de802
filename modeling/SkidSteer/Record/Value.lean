namespace SkidSteer.Record

/-- How a table is written: in braces, by keys with dots in them, or under headers. -/
inductive TableForm where
  | braced
  | dotted
  | headed
  deriving DecidableEq, Repr

/-- The entries of a table are in the order of the document; a key may stand there twice. -/
inductive Value where
  | nothing
  | boolean (b : Bool)
  | integer (n : Int)
  | float (x : Float)
  | text (s : String)
  /-- A date or a time, which no field holds. -/
  | moment
  | array (items : List Value)
  | table (form : TableForm) (entries : List (String × Value))
  deriving Inhabited

abbrev Entries := List (String × Value)

namespace Value

def number? : Value → Option Float
  | .float x => some x
  | .integer n => some (Float.ofInt n)
  | _ => none

def boolean? : Value → Option Bool
  | .boolean b => some b
  | _ => none

def text? : Value → Option String
  | .text s => some s
  | _ => none

variable {β : Type}

def list? (read : Value → Option β) : Value → Option (List β)
  | .array items => items.mapM read
  | _ => none

def pair? (read : Value → Option β) : Value → Option (β × β)
  | .array [a, b] => do return (← read a, ← read b)
  | _ => none

/-- The fields of a record by their names, none for one that is missing. A record with more items
than fields, or with a field that stands there twice, is no record. A moment has none of them. -/
def fields? (names : List String) : Value → Option (List (Option Value))
  | .array items =>
    if items.length ≤ names.length then some ((List.range names.length).map (items[·]?)) else none
  | .table _ entries =>
    if names.all fun name => entries.countP (·.1 == name) ≤ 1 then
      some (names.map fun name => entries.lookup name)
    else none
  | .moment => some (names.map fun _ => none)
  | _ => none

end Value

variable {β : Type}

def required (read : Value → Option β) (field : Option Value) : Option β := field.bind read

def optional (default : β) (read : Value → Option β) : Option Value → Option β
  | none => some default
  | some v => read v

end SkidSteer.Record
