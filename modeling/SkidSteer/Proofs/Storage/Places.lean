import SkidSteer.Proofs.Storage.Files
import Mathlib.Data.List.Infix
import Mathlib.Data.List.TakeWhile

namespace SkidSteer.Storage

def follow (place : List String) : List String → List String
  | [] => place
  | name :: rest =>
    if name = "." then follow place rest
    else if name = ".." then follow place.dropLast rest
    else follow (place ++ [name]) rest

/-- The place of a location, seen from a working directory. -/
def placeFrom (working : List String) (location : String) : List String :=
  follow (if isAbsolute location then [] else working) (names location)

/-- How far up names lead from where they begin, and down which names from there: `up` and `down`
are what the names before them come to. -/
def climb (up : Nat) (down : List String) : List String → Nat × List String
  | [] => (up, down)
  | name :: rest =>
    if name = "." then climb up down rest
    else if name = ".." then
      if down = [] then climb (up + 1) [] rest else climb up down.dropLast rest
    else climb up (down ++ [name]) rest

theorem follow_append (place front back : List String) :
    follow place (front ++ back) = follow (follow place front) back := by
  induction front generalizing place with
  | nil => rfl
  | cons name rest ih =>
    rw [List.cons_append, follow, follow]
    split
    · exact ih place
    · split
      · exact ih place.dropLast
      · exact ih (place ++ [name])

/-- Names lead up from a place, and then down. -/
theorem follow_climb (place names : List String) (up : Nat) (down : List String) :
    follow (place.take (place.length - up) ++ down) names =
      place.take (place.length - (climb up down names).1) ++ (climb up down names).2 := by
  induction names generalizing up down with
  | nil => rfl
  | cons name rest ih =>
    rw [follow, climb]
    split
    · exact ih up down
    · split
      · split
        · rename_i hdown
          subst hdown
          have habove : (place.take (place.length - up) ++ []).dropLast =
              place.take (place.length - (up + 1)) ++ [] := by
            rw [List.append_nil, List.append_nil, List.dropLast_eq_take, List.take_take,
              List.length_take]
            congr 1
            omega
          rw [habove]
          exact ih (up + 1) []
        · rename_i hdown
          rw [List.dropLast_append_of_ne_nil hdown]
          exact ih up down.dropLast
      · rw [List.append_assoc]
        exact ih up (down ++ [name])

theorem climb_of_not_mem {names : List String} {up : Nat} {down : List String} (h : ".." ∉ names) :
    (climb up down names).1 = up := by
  induction names generalizing down with
  | nil => rfl
  | cons name rest ih =>
    rw [List.mem_cons, not_or] at h
    rw [climb]
    split
    · exact ih h.2
    · rw [if_neg fun he => h.1 he.symm]
      exact ih h.2

/-- Names lead to a place below the one that they begin at exactly when they come back down the way
they went up. -/
theorem isPrefix_follow_iff (place names : List String) :
    place <+: follow place names ↔
      place.drop (place.length - (climb 0 [] names).1) <+: (climb 0 [] names).2 := by
  have hfollow := follow_climb place names 0 []
  rw [Nat.sub_zero, List.take_length, List.append_nil] at hfollow
  rw [hfollow]
  generalize place.length - (climb 0 [] names).1 = kept
  generalize (climb 0 [] names).2 = down
  calc place <+: place.take kept ++ down
      ↔ place.take kept ++ place.drop kept <+: place.take kept ++ down := by
        rw [List.take_append_drop]
    _ ↔ place.drop kept <+: down := List.prefix_append_right_inj _

theorem segments_separator (front back : List Char) :
    segments (front ++ separator :: back) = segments front ++ segments back := by
  rw [segments, pieces_separator, List.filter_append]
  rfl

theorem segments_of_not_mem {text : List Char} (h : separator ∉ text) (hn : text ≠ []) :
    segments text = [text] := by
  rw [segments, pieces_of_not_mem h]
  simp [hn]

theorem not_mem_of_mem_pieces {text piece : List Char} (h : piece ∈ pieces text) :
    separator ∉ piece := by
  induction text generalizing piece with
  | nil =>
    obtain rfl := List.mem_singleton.1 h
    exact List.not_mem_nil
  | cons c rest ih =>
    unfold pieces at h
    split at h
    · rcases List.mem_cons.1 h with rfl | hm
      · exact List.not_mem_nil
      · exact ih hm
    · rename_i hc
      cases hp : pieces rest with
      | nil => exact absurd hp (pieces_ne_nil rest)
      | cons first more =>
        rw [hp] at h
        rcases List.mem_cons.1 h with rfl | hm
        · rw [List.mem_cons, not_or]
          refine ⟨fun he => hc he.symm, ih ?_⟩
          rw [hp]
          exact List.mem_cons_self
        · apply ih
          rw [hp]
          exact List.mem_cons_of_mem _ hm

/-- A segment is not empty and has no separator. -/
theorem of_mem_segments {text segment : List Char} (h : segment ∈ segments text) :
    separator ∉ segment ∧ segment ≠ [] := by
  obtain ⟨hm, hn⟩ := List.mem_filter.1 h
  refine ⟨not_mem_of_mem_pieces hm, ?_⟩
  rintro rfl
  cases hn

theorem of_mem_below {name directory segment : List Char} (h : segment ∈ below name directory) :
    separator ∉ segment ∧ segment ≠ [] := by
  have hm : segment ∈ segments directory := by
    unfold below at h
    split at h
    · rename_i first rest he
      rw [he]
      split at h
      · exact List.mem_cons_of_mem _ h
      · exact h
    · cases h
  exact of_mem_segments hm

theorem segments_flatMap (root : List Char) {directories : List (List Char)}
    (h : ∀ directory ∈ directories, separator ∉ directory ∧ directory ≠ []) :
    segments (root ++ directories.flatMap (separator :: ·)) = segments root ++ directories := by
  induction directories generalizing root with
  | nil => rw [List.flatMap_nil, List.append_nil, List.append_nil]
  | cons directory rest ih =>
    obtain ⟨hs, hn⟩ := h directory List.mem_cons_self
    have hrest := ih (root ++ separator :: directory) fun d hd => h d (List.mem_cons_of_mem _ hd)
    rw [List.flatMap_cons, ← List.append_assoc, hrest, segments_separator,
      segments_of_not_mem hs hn, List.append_assoc, List.singleton_append]

theorem trimRoot_concat (root : List Char) (c : Char) :
    trimRoot (root ++ [c]) = if c = separator then trimRoot root else root ++ [c] := by
  rw [trimRoot, List.reverse_concat, List.dropWhile_cons]
  by_cases hc : c = separator
  · rw [if_pos hc, if_pos (beq_iff_eq.2 hc), trimRoot]
  · rw [if_neg hc, if_neg (by simpa using hc), ← List.reverse_concat, List.reverse_reverse]

/-- Separators at the end of a root lead nowhere. -/
theorem segments_trimRoot (root : List Char) : segments (trimRoot root) = segments root := by
  induction root using List.reverseRecOn with
  | nil => rfl
  | append_singleton root c ih =>
    rw [trimRoot_concat]
    split
    · rename_i hc
      rw [hc, segments_separator, ih]
      exact (List.append_nil _).symm
    · rfl

theorem trimRoot_prefix (root : List Char) : trimRoot root <+: root := by
  rw [trimRoot, ← List.reverse_suffix, List.reverse_reverse]
  exact List.dropWhile_suffix _

/-- A root that is nothing but separators begins with one. -/
theorem head?_of_trimRoot_eq_nil {root : List Char} (h : trimRoot root = []) (hn : root ≠ []) :
    root.head? = some separator := by
  rw [trimRoot, List.reverse_eq_nil_iff, List.dropWhile_eq_nil_iff] at h
  cases root with
  | nil => exact absurd rfl hn
  | cons c rest =>
    have hc := h c (by simp)
    rw [beq_iff_eq] at hc
    rw [hc]
    rfl

/-- The directories on the way to a file are those of the root and the segments below it. -/
theorem directoriesOf_eq (root directory : String) :
    directoriesOf root directory =
      names root ++ (below (rootName root.toList) directory.toList).map String.ofList := by
  rw [directoriesOf, segments_flatMap _ fun _ h => of_mem_below h, segments_trimRoot,
    List.map_append]
  rfl

/-- The names of a file below its root: no name is left of one that only had forbidden
characters. -/
def namesBelow (root directory filename : String) : List String :=
  (below (rootName root.toList) directory.toList).map String.ofList ++
    if cleanName filename.toList = [] then [] else [String.ofList (cleanName filename.toList)]

theorem names_fileLocation (root directory filename : String) :
    names (fileLocation root directory filename) =
      names root ++ namesBelow root directory filename := by
  have hdirectories := directoriesOf_eq root directory
  rw [names, fileLocation, String.toList_ofList, location, joined, segments_separator,
    List.map_append]
  change directoriesOf root directory ++ _ = _
  rw [hdirectories, List.append_assoc, namesBelow]
  congr 2
  split
  · rename_i he
    rw [he]
    rfl
  · rename_i hn
    rw [segments_of_not_mem (separator_not_mem_cleanName _) hn]
    rfl

theorem isAbsolute_fileLocation {root : String} (h : root ≠ "") (directory filename : String) :
    isAbsolute (fileLocation root directory filename) = isAbsolute root := by
  have hn : root.toList ≠ [] := by
    intro he
    exact h (String.toList_injective he)
  rw [isAbsolute, isAbsolute, fileLocation, String.toList_ofList, location, joined]
  obtain ⟨ending, hroot⟩ := trimRoot_prefix root.toList
  cases ht : trimRoot root.toList with
  | nil =>
    rw [head?_of_trimRoot_eq_nil ht hn]
    cases below (rootName root.toList) directory.toList <;> rfl
  | cons c rest =>
    rw [ht] at hroot
    rw [← hroot]
    rfl

/-- A file lies where its names below the root lead from the root. -/
theorem placeFrom_fileLocation {root : String} (h : root ≠ "") (working : List String)
    (directory filename : String) :
    placeFrom working (fileLocation root directory filename) =
      follow (placeFrom working root) (namesBelow root directory filename) := by
  rw [placeFrom, isAbsolute_fileLocation h, names_fileLocation, follow_append]
  rfl

namespace FileSystem

variable {fs : FileSystem} {place dest : List String}

theorem follow_of_walk {way : List String} (h : fs.walk place way = .ok dest) :
    follow place way = dest := by
  induction way generalizing place with
  | nil => exact Except.ok.inj h
  | cons name rest ih =>
    unfold walk at h
    rw [follow]
    split
    · rename_i hdot
      rw [if_pos hdot] at h
      exact ih h
    · rename_i hdot
      rw [if_neg hdot] at h
      split
      · rename_i hup
        rw [if_pos hup] at h
        exact ih h
      · rename_i hup
        rw [if_neg hup] at h
        split at h
        · cases h
        · split at h
          · cases h
          · cases h
          · exact ih h

/-- A file that is found lies where its location leads. -/
theorem place_of_locate {root directory id : String} {side : Side}
    (h : fs.locate (fileOf root directory id side) = .ok place) :
    place = placeFrom fs.working (fileOf root directory id side) := by
  obtain ⟨hdot, hup⟩ := lastName_ne_dots id side
  obtain ⟨-, -, dir, hwalk, rfl⟩ := locate_fileOf.1 h
  have hdir := follow_of_walk hwalk
  rw [placeFrom, names_fileOf, follow_append, ← start, hdir, follow, if_neg hdot, if_neg hup]
  rfl

end FileSystem

end SkidSteer.Storage
