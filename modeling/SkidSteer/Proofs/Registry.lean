import SkidSteer.Registry

namespace SkidSteer

/-- What is found where a value replaces the one under its key, or comes last when there is none. -/
theorem lookup_of_put {α β : Type} [BEq α] [LawfulBEq α] [DecidableEq α] {key : α} {value : β}
    (put : List (α × β) → List (α × β)) (nil : put [] = [(key, value)])
    (cons : ∀ entry rest, put (entry :: rest) =
      if entry.1 = key then (key, value) :: rest else entry :: put rest)
    (entries : List (α × β)) (other : α) :
    (put entries).lookup other = if other = key then some value else entries.lookup other := by
  induction entries with
  | nil =>
    by_cases h : other = key
    · simp [nil, h]
    · rw [if_neg h, nil, List.lookup_cons, beq_false_of_ne h]
  | cons entry rest ih =>
    obtain ⟨first, kept⟩ := entry
    rw [cons]
    by_cases hk : first = key
    · subst hk
      by_cases h : other = first
      · simp [h]
      · simp only [if_true, if_neg h, List.lookup_cons, beq_false_of_ne h]
    · rw [if_neg hk, List.lookup_cons, List.lookup_cons, ih]
      by_cases h : other = first
      · simp only [beq_iff_eq.2 h, if_neg (h ▸ hk : ¬other = key)]
      · rw [beq_false_of_ne h]

namespace Registry

variable {r : Registry} {id other : String} {path : Path}

theorem lookup_put (entries : List (String × Path)) :
    (put id path entries).lookup other =
      if other = id then some path else entries.lookup other :=
  lookup_of_put (put id path) rfl (fun _ _ => rfl) entries other

theorem put_of_lookup_eq_none {entries : List (String × Path)} (h : entries.lookup id = none) :
    put id path entries = entries ++ [(id, path)] := by
  induction entries with
  | nil => rfl
  | cons entry rest ih =>
    obtain ⟨key, kept⟩ := entry
    have hne : id ≠ key := by
      rintro rfl
      simp at h
    rw [List.lookup_cons, beq_false_of_ne hne] at h
    rw [put, if_neg hne.symm, ih h, List.cons_append]

theorem put_of_lookup_eq_some {entries : List (String × Path)} (h : entries.lookup id = some path) :
    put id path entries = entries := by
  induction entries with
  | nil => cases h
  | cons entry rest ih =>
    obtain ⟨key, kept⟩ := entry
    by_cases hk : key = id
    · subst hk
      rw [List.lookup_cons_self, Option.some.injEq] at h
      rw [put, if_pos rfl, h]
    · rw [List.lookup_cons, beq_false_of_ne (Ne.symm hk)] at h
      rw [put, if_neg hk, ih h]

theorem insert_of_get? (h : r.get? id = some path) : r.insert id path = r := by
  unfold insert
  split
  · rfl
  · rw [put_of_lookup_eq_some h]

theorem get?_insert (h : path.isEmpty = false) :
    (r.insert id path).get? other = if other = id then some path else r.get? other := by
  simp only [insert, h, Bool.false_eq_true, ↓reduceIte, get?]
  exact lookup_put r.entries

theorem get?_erase_of_ne (h : other ≠ id) : (r.erase id).get? other = r.get? other := by
  simp only [get?, erase]
  induction r.entries with
  | nil => rfl
  | cons entry rest ih =>
    obtain ⟨key, kept⟩ := entry
    by_cases hk : key = id
    · have hne : other ≠ key := hk ▸ h
      rw [List.eraseP_cons_of_pos (by simpa using hk), List.lookup_cons, beq_false_of_ne hne]
    · rw [List.eraseP_cons_of_neg (by simpa using hk), List.lookup_cons, List.lookup_cons, ih]

/-- What is erased may have been inserted just before or not. -/
theorem erase_insert : (r.insert id path).erase id = r.erase id := by
  have hput : ∀ entries : List (String × Path),
      (put id path entries).eraseP (·.1 == id) = entries.eraseP (·.1 == id) := by
    intro entries
    induction entries with
    | nil => simp [put]
    | cons entry rest ih =>
      by_cases hk : entry.1 = id
      · rw [put, if_pos hk, List.eraseP_cons_of_pos (by simp), List.eraseP_cons_of_pos (by simp [hk])]
      · rw [put, if_neg hk, List.eraseP_cons_of_neg (by simp [hk]),
          List.eraseP_cons_of_neg (by simp [hk]), ih]
  unfold insert
  split
  · rfl
  · simp only [erase, hput]

/-- A path that is there is not lost when another, or one in its place, is inserted. -/
theorem contains_insert (h : r.contains other = true) :
    (r.insert id path).contains other = true := by
  cases he : path.isEmpty with
  | true => simpa [insert, he] using h
  | false =>
    unfold contains at h ⊢
    rw [get?_insert he]
    split
    · rfl
    · exact h

theorem contains_erase_of_ne (h : other ≠ id) : (r.erase id).contains other = r.contains other := by
  unfold contains
  rw [get?_erase_of_ne h]

theorem mem_of_get? (h : r.get? id = some path) : (id, path) ∈ r.entries := by
  rw [get?, List.lookup_eq_some_iff] at h
  obtain ⟨before, after, he, -⟩ := h
  rw [he]
  simp

theorem mem_put {entries : List (String × Path)} {entry : String × Path}
    (h : entry ∈ put id path entries) : entry ∈ entries ∨ entry = (id, path) := by
  induction entries with
  | nil => exact Or.inr (List.mem_singleton.mp h)
  | cons first rest ih =>
    unfold put at h
    split at h
    · rcases List.mem_cons.mp h with rfl | hm
      · exact Or.inr rfl
      · exact Or.inl (List.mem_cons_of_mem _ hm)
    · rcases List.mem_cons.mp h with rfl | hm
      · exact Or.inl (List.mem_cons_self ..)
      · exact (ih hm).imp_left (List.mem_cons_of_mem _)

/-- What is inserted is not empty. -/
theorem mem_insert {entry : String × Path} (h : entry ∈ (r.insert id path).entries) :
    entry ∈ r.entries ∨ entry = (id, path) ∧ path.isEmpty = false := by
  unfold insert at h
  split at h
  · exact Or.inl h
  · rename_i he
    exact (mem_put h).imp_right fun h => ⟨h, Bool.eq_false_iff.2 he⟩

theorem mem_erase {entry : String × Path} (h : entry ∈ (r.erase id).entries) :
    entry ∈ r.entries :=
  List.mem_of_mem_eraseP h

end Registry

end SkidSteer
