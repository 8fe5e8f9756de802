namespace SkidSteer.Storage

def separator : Char := '/'

/-- The pieces between separators, the empty ones included. -/
def pieces : List Char → List (List Char)
  | [] => [[]]
  | c :: rest =>
    if c = separator then [] :: pieces rest
    else
      match pieces rest with
      | piece :: more => (c :: piece) :: more
      | [] => [[c]]

def segments (text : List Char) : List (List Char) :=
  (pieces text).filter (!·.isEmpty)

/-- A root without the separators at its end. -/
def trimRoot (root : List Char) : List Char :=
  (root.reverse.dropWhile (· == separator)).reverse

/-- The last piece of a trimmed root. It is empty only for a root of separators. -/
def rootName (root : List Char) : List Char :=
  (pieces (trimRoot root)).getLast?.getD []

/-- The segments of a directory below a root of the given name. -/
def below (name : List Char) (directory : List Char) : List (List Char) :=
  match segments directory with
  | first :: rest => if first = name then rest else first :: rest
  | [] => []

/-- Characters that a storage device does not allow in a file name. -/
def forbidden : List Char := ['<', '>', ':', '"', '\\', '*', '|', '/']

def cleanName (filename : List Char) : List Char :=
  filename.filter fun c => !forbidden.contains c

/-- One separator before each segment, and one before the file name. -/
def joined (root : List Char) (segments : List (List Char)) (filename : List Char) : List Char :=
  root ++ segments.flatMap (separator :: ·) ++ separator :: filename

def location (root directory filename : List Char) : List Char :=
  joined (trimRoot root) (below (rootName root) directory) (cleanName filename)

/-- The text of a file's location in `directory` under `root`. -/
def fileLocation (root directory filename : String) : String :=
  String.ofList (location root.toList directory.toList filename.toList)

def isAbsolute (location : String) : Bool := location.toList.head? == some separator

/-- A location that ends in a separator names a directory. -/
def endsInSeparator (location : String) : Bool := location.toList.getLast? == some separator

/-- A location below another. One that begins at the root directory stands for itself. -/
def join (base name : String) : String :=
  if isAbsolute name ∨ base = "" then name
  else if endsInSeparator base then base ++ name
  else base ++ separator.toString ++ name

/-- The names in a location. A dot stands for the directory it is in, two for the one above. -/
def names (location : String) : List String :=
  (segments location.toList).map String.ofList

/-- Of pieces in reverse, each that leads elsewhere, with those before it. -/
def partsFrom : List (List Char) → List String
  | [] => []
  | piece :: before =>
    if piece = [] ∨ piece = ['.'] then partsFrom before
    else
      String.ofList (List.intercalate [separator] (piece :: before).reverse) :: partsFrom before

/-- The parts of a location that end in a name other than a dot, the longest first. From the second
on they are the directories above what it names. -/
def parts (location : String) : List String :=
  partsFrom (pieces location.toList).reverse

/-- The directory that what a location names is in, if the location tells it. -/
def parent? (location : String) : Option String := (parts location)[1]?

end SkidSteer.Storage
