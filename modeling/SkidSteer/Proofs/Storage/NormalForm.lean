import SkidSteer.Proofs.Storage.Places
import Mathlib.Data.List.DropRight

namespace SkidSteer.Storage

theorem pieces_eq_splitOn (text : List Char) : pieces text = text.splitOn separator := by
  induction text with
  | nil => exact (List.splitOn_nil separator).symm
  | cons c rest ih =>
    rw [pieces, ih, List.splitOn_cons_eq_if_modifyHead]
    simp only [beq_iff_eq]
    split
    · rfl
    · cases h : rest.splitOn separator with
      | nil => exact absurd h (List.splitOn_ne_nil _ _)
      | cons piece more => rfl

theorem pieces_concat {c : Char} (hc : c ≠ separator) (text : List Char) :
    ∃ front piece, pieces (text ++ [c]) = front ++ [piece ++ [c]] := by
  induction text with
  | nil => exact ⟨[], [], pieces_of_not_mem (by simpa using hc.symm)⟩
  | cons first rest ih =>
    obtain ⟨front, piece, hrest⟩ := ih
    rw [List.cons_append, pieces, hrest]
    split
    · exact ⟨[] :: front, piece, rfl⟩
    · cases front with
      | nil => exact ⟨[], first :: piece, rfl⟩
      | cons second more => exact ⟨(first :: second) :: more, piece, rfl⟩

/-- A root is named by its last segment, if it has one. -/
theorem rootName_eq (root : List Char) : rootName root = (segments root).getLast?.getD [] := by
  induction root using List.reverseRecOn with
  | nil => rfl
  | append_singleton root c ih =>
    by_cases hc : c = separator
    · have htrim : trimRoot (root ++ [c]) = trimRoot root := by rw [trimRoot_concat, if_pos hc]
      rw [rootName, htrim, ← rootName, ih, ← segments_trimRoot (root ++ [c]), htrim,
        segments_trimRoot]
    · obtain ⟨front, piece, hpieces⟩ := pieces_concat hc root
      rw [rootName, trimRoot_concat, if_neg hc, segments, hpieces]
      simp

theorem trimRoot_eq_rdropWhile (root : List Char) :
    trimRoot root = root.rdropWhile (· == separator) := rfl

/-- A root is its bare text and some separators after it. -/
theorem exists_trimRoot_append (root : List Char) :
    ∃ count, root = trimRoot root ++ List.replicate count separator := by
  refine ⟨(root.rtakeWhile (· == separator)).length, ?_⟩
  have hending : root.rtakeWhile (· == separator) =
      List.replicate (root.rtakeWhile (· == separator)).length separator := by
    apply List.eq_replicate_of_mem
    intro c hc
    exact beq_iff_eq.1 (List.mem_rtakeWhile_imp (p := (· == separator)) hc)
  rw [← hending, trimRoot_eq_rdropWhile, List.rdropWhile_append_rtakeWhile]

theorem getLast?_trimRoot (root : List Char) : (trimRoot root).getLast? ≠ some separator := by
  intro h
  have hne : trimRoot root ≠ [] := by
    intro hnil
    rw [hnil] at h
    cases h
  rw [List.getLast?_eq_some_getLast hne, Option.some.injEq] at h
  exact List.rdropWhile_last_not (· == separator) root hne (beq_iff_eq.2 h)

theorem joined_eq_append (root : List Char) (directories : List (List Char))
    (filename : List Char) : joined root directories filename =
      root ++ joined [] directories filename := by
  simp only [joined, List.nil_append, List.append_assoc]

theorem pieces_joined (root : List Char) {directories : List (List Char)} {filename : List Char}
    (hd : ∀ directory ∈ directories, separator ∉ directory) (hf : separator ∉ filename) :
    pieces (joined root directories filename) = pieces root ++ (directories ++ [filename]) := by
  induction directories generalizing root with
  | nil =>
    rw [joined, List.flatMap_nil, List.append_nil, pieces_separator, pieces_of_not_mem hf]
    rfl
  | cons directory rest ih =>
    obtain ⟨hs, hrest⟩ := List.forall_mem_cons.1 hd
    have hnext : joined root (directory :: rest) filename =
        joined (root ++ separator :: directory) rest filename := by
      simp only [joined, List.flatMap_cons, List.append_assoc]
    rw [hnext, ih _ hrest, pieces_separator, pieces_of_not_mem hs, List.append_assoc]
    rfl

/-- After the root the pieces of a location are its segments and its file name; it begins with a
separator. -/
theorem pieces_location (name directory filename : List Char) :
    pieces (joined [] (below name directory) (cleanName filename)) =
      [] :: (below name directory ++ [cleanName filename]) :=
  pieces_joined [] (fun _ h => (of_mem_below h).1) (separator_not_mem_cleanName filename)

/-- Where all pieces but the first and the last are something, no separator follows another. -/
theorem ne_append_separators {text last : List Char} {middle : List (List Char)}
    (h : pieces text = [] :: (middle ++ [last])) (hm : [] ∉ middle) (front back : List Char) :
    text ≠ front ++ separator :: separator :: back := by
  intro htext
  have hsplit : pieces text = pieces front ++ [] :: pieces back := by
    rw [htext, pieces_separator]
    rfl
  obtain ⟨first, before, hfront⟩ := List.exists_cons_of_ne_nil (pieces_ne_nil front)
  obtain ⟨after, final, hback⟩ :=
    (List.eq_nil_or_concat (pieces back)).resolve_left (pieces_ne_nil back)
  rw [h, hfront, hback, List.cons_append, List.cons.injEq] at hsplit
  have hmiddle : middle ++ [last] = (before ++ [] :: after) ++ [final] := by
    rw [hsplit.2, List.concat_eq_append, List.append_assoc, List.cons_append]
  apply hm
  rw [(List.append_inj' hmiddle rfl).1]
  simp

theorem location_inj {root directory directory' filename filename' : List Char} :
    location root directory filename = location root directory' filename' ↔
      below (rootName root) directory = below (rootName root) directory' ∧
        cleanName filename = cleanName filename' := by
  constructor
  · intro h
    rw [location, location, joined_eq_append, joined_eq_append (trimRoot root)] at h
    have hpieces := congrArg pieces (List.append_cancel_left h)
    rw [pieces_location, pieces_location, List.cons.injEq] at hpieces
    obtain ⟨hbelow, hclean⟩ := List.append_inj' hpieces.2 rfl
    exact ⟨hbelow, List.singleton_inj.1 hclean⟩
  · rintro ⟨hbelow, hclean⟩
    rw [location, location, hbelow, hclean]

theorem below_of_head?_ne {name directory : List Char}
    (h : (segments directory).head? ≠ some name) : below name directory = segments directory := by
  unfold below
  cases hs : segments directory with
  | nil => rfl
  | cons first rest =>
    rw [hs] at h
    exact if_neg fun he => h (congrArg some he)

theorem below_of_cons {name directory : List Char} {rest : List (List Char)}
    (h : segments directory = name :: rest) : below name directory = rest := by
  rw [below, h]
  exact if_pos rfl

/-- The name of the root may stand before a directory, unless it stands there already. -/
theorem below_named_iff {name : List Char} (hname : separator ∉ name) (directory : List Char) :
    below name (name ++ separator :: directory) = below name directory ↔
      (segments directory).head? ≠ some name := by
  have hnamed := segments_separator name directory
  by_cases hn : name = []
  · have hhead : (segments directory).head? ≠ some name := by
      intro he
      exact (of_mem_segments (List.mem_of_head? he)).2 hn
    have hsame : segments (name ++ separator :: directory) = segments directory := by
      rw [hnamed, hn]
      rfl
    rw [below_of_head?_ne hhead, below_of_head?_ne (hsame ▸ hhead), hsame]
    exact iff_of_true rfl hhead
  · rw [segments_of_not_mem hname hn] at hnamed
    rw [below_of_cons hnamed]
    constructor
    · intro h hhead
      obtain ⟨rest, hrest⟩ := List.head?_eq_some_iff.1 hhead
      rw [below_of_cons hrest, hrest] at h
      simp at h
    · intro h
      exact (below_of_head?_ne h).symm

theorem separator_not_mem_rootName (root : List Char) : separator ∉ rootName root := by
  rw [rootName]
  cases h : (pieces (trimRoot root)).getLast? with
  | none => exact List.not_mem_nil
  | some piece => exact not_mem_of_mem_pieces (List.mem_of_getLast? h)

/-- The text of a location from a bare root: one separator before each segment of the directory and
one before the file name, which is what follows the last of them. -/
structure NormalForm (root name directory filename text : List Char) : Prop where
  made : text = root ++ (below name directory).flatMap (separator :: ·) ++
    separator :: cleanName filename
  single : ∀ front back, text.drop root.length ≠ front ++ separator :: separator :: back
  last : (pieces text).getLast? = some (cleanName filename)
  allowed : (cleanName filename).Disjoint forbidden

theorem normalForm_joined (root name directory filename : List Char) :
    NormalForm root name directory filename
      (joined root (below name directory) (cleanName filename)) := by
  constructor
  case made => rfl
  case single =>
    rw [joined_eq_append, List.drop_left]
    apply ne_append_separators (pieces_location name directory filename)
    intro hempty
    exact (of_mem_below hempty).2 rfl
  case last =>
    rw [pieces_joined root (fun _ h => (of_mem_below h).1) (separator_not_mem_cleanName _),
      ← List.append_assoc, List.getLast?_concat]
  case allowed =>
    intro c hc hbad
    have hkept := (List.mem_filter.1 hc).2
    simp [hbad] at hkept

/-- However directory and filename are written, the text of a location has one separator before each
segment below the root and one before the file name, and so tells both. -/
theorem fileLocation_normal_form (root : String) :
    (∃ count, root.toList = trimRoot root.toList ++ List.replicate count separator) ∧
    (trimRoot root.toList).getLast? ≠ some separator ∧
    rootName root.toList = (segments root.toList).getLast?.getD [] ∧
    (∀ text, segments text = (text.splitOn separator).filter (!·.isEmpty)) ∧
    (∀ directory filename, NormalForm (trimRoot root.toList) (rootName root.toList)
      directory.toList filename.toList (fileLocation root directory filename).toList) ∧
    (∀ directory directory' filename filename',
      fileLocation root directory filename = fileLocation root directory' filename' ↔
        below (rootName root.toList) directory.toList =
            below (rootName root.toList) directory'.toList ∧
          cleanName filename.toList = cleanName filename'.toList) ∧
    (∀ directory filename,
      fileLocation root (String.ofList (rootName root.toList) ++ "/" ++ directory) filename =
          fileLocation root directory filename ↔
        (segments directory.toList).head? ≠ some (rootName root.toList)) := by
  refine ⟨exists_trimRoot_append _, getLast?_trimRoot _, rootName_eq _, ?_, ?_, ?_, ?_⟩
  · intro text
    rw [segments, pieces_eq_splitOn]
  · intro directory filename
    rw [fileLocation, String.toList_ofList, location]
    exact normalForm_joined _ _ _ _
  · intro directory directory' filename filename'
    rw [fileLocation, fileLocation, String.ofList_inj, location_inj]
  · intro directory filename
    have hnamed : (String.ofList (rootName root.toList) ++ "/" ++ directory).toList =
        rootName root.toList ++ separator :: directory.toList := by
      simp [separator]
    rw [fileLocation, fileLocation, String.ofList_inj, location_inj, hnamed,
      below_named_iff (separator_not_mem_rootName _), and_iff_left rfl]

end SkidSteer.Storage
