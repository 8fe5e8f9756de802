import SkidSteer.Control.Storing

namespace SkidSteer.Storage

theorem pieces_ne_nil (text : List Char) : pieces text ≠ [] := by
  cases text with
  | nil => simp [pieces]
  | cons c rest =>
    unfold pieces
    split
    · simp
    · split <;> simp

theorem pieces_separator (front back : List Char) :
    pieces (front ++ separator :: back) = pieces front ++ pieces back := by
  induction front with
  | nil => simp [pieces]
  | cons c rest ih =>
    by_cases hc : c = separator
    · simp [pieces, hc, ih]
    · cases hp : pieces rest with
      | nil => exact absurd hp (pieces_ne_nil rest)
      | cons piece more => simp [pieces, hc, ih, hp]

theorem pieces_of_not_mem {text : List Char} (h : separator ∉ text) : pieces text = [text] := by
  induction text with
  | nil => rfl
  | cons c rest ih =>
    rw [List.mem_cons, not_or] at h
    have hc : c ≠ separator := fun he => h.1 he.symm
    simp [pieces, hc, ih h.2]

theorem segments_joined {root filename : List Char} (directories : List (List Char))
    (hs : separator ∉ filename) (hn : filename ≠ []) :
    segments (joined root directories filename) =
      segments (root ++ directories.flatMap (separator :: ·)) ++ [filename] := by
  have hkeep : (!filename.isEmpty) = true := by
    cases filename with
    | nil => exact absurd rfl hn
    | cons c rest => rfl
  rw [joined, segments, pieces_separator, pieces_of_not_mem hs, List.filter_append, segments]
  simp [hkeep]

theorem separator_not_mem_cleanName (filename : List Char) : separator ∉ cleanName filename := by
  intro h
  have := (List.mem_filter.1 h).2
  simp [separator, forbidden] at this

theorem cleanName_append (front back : List Char) :
    cleanName (front ++ back) = cleanName front ++ cleanName back :=
  List.filter_append ..

def fileName (id : String) : Side → String
  | .left => id ++ ".left.bin"
  | .right => id ++ ".right.bin"

def ending : Side → List Char
  | .left => ['.', 'l', 'e', 'f', 't', '.', 'b', 'i', 'n']
  | .right => ['.', 'r', 'i', 'g', 'h', 't', '.', 'b', 'i', 'n']

theorem cleanName_fileName (id : String) (side : Side) :
    cleanName (fileName id side).toList = cleanName id.toList ++ ending side := by
  cases side <;> rw [fileName, String.toList_append, cleanName_append] <;> rfl

theorem ending_inj {front front' : List Char} {side side' : Side}
    (h : front ++ ending side = front' ++ ending side') : front = front' ∧ side = side' := by
  cases side <;> cases side'
  · exact ⟨List.append_cancel_right h, rfl⟩
  · have hr := congrArg List.reverse h
    simp [ending] at hr
  · have hr := congrArg List.reverse h
    simp [ending] at hr
  · exact ⟨List.append_cancel_right h, rfl⟩

@[irreducible] def fileOf (root directory id : String) (side : Side) : String :=
  fileLocation root directory (fileName id side)

theorem files_eq (root directory id : String) : PathFiles.of root directory id =
    ⟨fileOf root directory id .left, fileOf root directory id .right⟩ := by
  unfold fileOf
  rfl

def lastName (id : String) (side : Side) : String :=
  String.ofList (cleanName id.toList ++ ending side)

theorem lastName_inj {a b : String} {side side' : Side} (h : lastName a side = lastName b side') :
    cleanName a.toList = cleanName b.toList ∧ side = side' :=
  ending_inj (String.ofList_injective h)

theorem toList_fileOf (root directory id : String) (side : Side) :
    (fileOf root directory id side).toList =
      joined (trimRoot root.toList) (below (rootName root.toList) directory.toList)
        (cleanName id.toList ++ ending side) := by
  rw [fileOf, fileLocation, String.toList_ofList, location, cleanName_fileName]

/-- The directories on the way to the files of a path, which are the same for both. -/
def directoriesOf (root directory : String) : List String :=
  (segments (trimRoot root.toList ++
    (below (rootName root.toList) directory.toList).flatMap (separator :: ·))).map String.ofList

theorem names_fileOf (root directory id : String) (side : Side) :
    names (fileOf root directory id side) = directoriesOf root directory ++ [lastName id side] := by
  have hs : separator ∉ cleanName id.toList ++ ending side := by
    rw [← cleanName_fileName]
    exact separator_not_mem_cleanName _
  have hn : cleanName id.toList ++ ending side ≠ [] := by cases side <;> simp [ending]
  rw [names, toList_fileOf, segments_joined _ hs hn, List.map_append]
  rfl

/-- The last name is no dot and no two dots, so it names something in the directory before it. -/
theorem lastName_ne_dots (id : String) (side : Side) :
    lastName id side ≠ "." ∧ lastName id side ≠ ".." := by
  have hlength : ∀ dots : String, dots.toList.length ≤ 2 → lastName id side ≠ dots := by
    intro dots hd he
    have hl := congrArg (fun s => s.toList.length) he
    cases side <;> simp [lastName, ending] at hl <;> omega
  exact ⟨hlength "." (by decide), hlength ".." (by decide)⟩

theorem endsInSeparator_fileOf (root directory id : String) (side : Side) :
    endsInSeparator (fileOf root directory id side) = false := by
  rw [endsInSeparator, toList_fileOf, joined]
  cases side <;> simp [ending, separator, List.getLast?_cons, List.getLast?_append]

end SkidSteer.Storage
