import SkidSteer.Proofs.Control.Turns
import SkidSteer.Proofs.Registry

namespace SkidSteer

inductive Edit where
  | insert (id : String) (path : Path)
  | erase (id : String)

namespace Edit

def id : Edit → String
  | .insert id _ | .erase id => id

/-- What is kept under an id is decided anew here: by a path that is not empty, or by erasing. -/
def touches (id : String) : Edit → Bool
  | .insert other path => other == id && !path.isEmpty
  | .erase other => other == id

end Edit

/-- The last edit that touches an id inserts this path. -/
def Kept (edits : List Edit) (id : String) (path : Path) : Prop :=
  path.isEmpty = false ∧ ∃ earlier later, edits = earlier ++ .insert id path :: later ∧
    ∀ e ∈ later, e.touches id = false

/-- The id came in with the edit of this number and was not erased since. -/
structure Entered (edits : List Edit) (id : String) (number : Nat) : Prop where
  absent : ∀ path, ¬Kept (edits.take number) id path
  inserted : ∃ path, edits[number]? = some (.insert id path) ∧ path.isEmpty = false
  stays : Edit.erase id ∉ edits.drop (number + 1)

theorem not_kept_nil (id : String) (path : Path) : ¬Kept [] id path := by
  rintro ⟨-, earlier, later, he, -⟩
  cases earlier <;> cases he

/-- An edit decides anew, or leaves what was decided. -/
theorem kept_concat {edits : List Edit} {e : Edit} {id : String} {path : Path} :
    Kept (edits ++ [e]) id path ↔
      e = .insert id path ∧ path.isEmpty = false ∨ e.touches id = false ∧ Kept edits id path := by
  constructor
  · rintro ⟨hn, earlier, later, he, hl⟩
    rcases List.eq_nil_or_concat later with rfl | ⟨later, last, rfl⟩
    · obtain ⟨-, hlast⟩ := List.append_inj' he rfl
      exact Or.inl ⟨List.singleton_inj.1 hlast, hn⟩
    · rw [List.concat_eq_append, ← List.cons_append, ← List.append_assoc] at he
      obtain ⟨rfl, hlast⟩ := List.append_inj' he rfl
      obtain rfl := List.singleton_inj.1 hlast
      refine Or.inr ⟨hl e (by simp), hn, earlier, later, rfl, fun x hx => hl x ?_⟩
      simp [hx]
  · rintro (⟨rfl, hn⟩ | ⟨ht, hn, earlier, later, rfl, hl⟩)
    · exact ⟨hn, edits, [], rfl, by simp⟩
    · refine ⟨hn, earlier, later ++ [e], by simp, fun x hx => ?_⟩
      rcases List.mem_append.1 hx with hx | hx
      · exact hl x hx
      · rwa [List.mem_singleton.1 hx]

theorem Entered.concat {edits : List Edit} {e : Edit} {id : String} {number : Nat}
    (h : Entered edits id number) (he : e ≠ .erase id) : Entered (edits ++ [e]) id number := by
  obtain ⟨habsent, ⟨path, hinserted, hn⟩, hstays⟩ := h
  have hlt : number < edits.length := (List.getElem?_eq_some_iff.1 hinserted).1
  refine ⟨?_, ⟨path, ?_, hn⟩, ?_⟩
  · rwa [List.take_append_of_le_length (Nat.le_of_lt hlt)]
  · rwa [List.getElem?_append_left hlt]
  · rw [List.drop_append_of_le_length hlt]
    simp [hstays, he.symm]

theorem Entered.last {edits : List Edit} {id : String} {path : Path}
    (hn : path.isEmpty = false) (habsent : ∀ path, ¬Kept edits id path) :
    Entered (edits ++ [.insert id path]) id edits.length :=
  ⟨by simpa using habsent, ⟨path, by simp, hn⟩, by simp⟩

/-- The ids came in one after the other. -/
def InOrder (edits : List Edit) (ids : List String) : Prop :=
  ∃ since : String → Nat, (∀ id ∈ ids, Entered edits id (since id)) ∧
    ids.Pairwise fun first second => since first < since second

namespace InOrder

variable {edits : List Edit} {e : Edit} {ids : List String} {id : String} {path : Path}

theorem stays (h : InOrder edits ids) (he : ∀ id ∈ ids, e ≠ .erase id) :
    InOrder (edits ++ [e]) ids := by
  obtain ⟨since, hsince, hsorted⟩ := h
  exact ⟨since, fun id hid => (hsince id hid).concat (he id hid), hsorted⟩

theorem sublist {fewer : List String} (h : InOrder edits ids) (hs : fewer.Sublist ids) :
    InOrder edits fewer := by
  obtain ⟨since, hsince, hsorted⟩ := h
  exact ⟨since, fun id hid => hsince id (hs.subset hid), hsorted.sublist hs⟩

/-- A new id comes in now, after all that are there. -/
theorem enters (h : InOrder edits ids) (hn : path.isEmpty = false) (hm : id ∉ ids)
    (habsent : ∀ path, ¬Kept edits id path) :
    InOrder (edits ++ [.insert id path]) (ids ++ [id]) := by
  obtain ⟨since, hsince, hsorted⟩ := h
  let now (other : String) : Nat := if other = id then edits.length else since other
  have hnew : now id = edits.length := if_pos rfl
  have hold : ∀ other ∈ ids, now other = since other := by
    intro other ho
    refine if_neg ?_
    rintro rfl
    exact hm ho
  refine ⟨now, fun other ho => ?_, List.pairwise_append.2 ⟨?_, List.pairwise_singleton .., ?_⟩⟩
  · rcases List.mem_append.1 ho with ho | ho
    · rw [hold other ho]
      exact (hsince other ho).concat nofun
    · rw [List.mem_singleton.1 ho, hnew]
      exact Entered.last hn habsent
  · refine hsorted.imp_of_mem fun ha hb hlt => ?_
    rwa [hold _ ha, hold _ hb]
  · intro other ho last hl
    obtain ⟨_, hinserted, -⟩ := (hsince other ho).inserted
    rw [List.mem_singleton.1 hl, hnew, hold other ho]
    exact (List.getElem?_eq_some_iff.1 hinserted).1

end InOrder

namespace Registry

def edit (r : Registry) : Edit → Registry
  | .insert id path => r.insert id path
  | .erase id => r.erase id

def ofEdits (edits : List Edit) : Registry := edits.foldl edit empty

variable {r : Registry} {id other : String} {path : Path} {e : Edit} {edits : List Edit}

theorem contains_iff_mem_ids : r.contains id = true ↔ id ∈ r.ids := by
  rw [contains, get?, ids]
  induction r.entries with
  | nil => simp
  | cons entry rest ih =>
    obtain ⟨key, kept⟩ := entry
    by_cases hk : id = key
    · simp [hk]
    · rw [List.lookup_cons, beq_false_of_ne hk, List.map_cons, List.mem_cons, ← ih]
      simp [hk]

theorem get?_eq_none_iff : r.get? id = none ↔ id ∉ r.ids := by
  rw [← contains_iff_mem_ids, contains]
  simp

theorem keys_put_of_mem {entries : List (String × Path)} (h : id ∈ entries.map (·.1)) :
    (put id path entries).map (·.1) = entries.map (·.1) := by
  induction entries with
  | nil => cases h
  | cons entry rest ih =>
    by_cases hk : entry.1 = id
    · simp [put, hk]
    · have hrest : id ∈ rest.map (·.1) := by
        rcases List.mem_cons.1 h with hid | hid
        · exact absurd hid.symm hk
        · exact hid
      rw [put, if_neg hk, List.map_cons, ih hrest, List.map_cons]

/-- A path that takes the place of another leaves the ids as they are. -/
theorem ids_insert_of_mem (h : id ∈ r.ids) : (r.insert id path).ids = r.ids := by
  unfold insert
  split
  · rfl
  · exact keys_put_of_mem h

theorem ids_insert_of_not_mem (hn : path.isEmpty = false) (h : id ∉ r.ids) :
    (r.insert id path).ids = r.ids ++ [id] := by
  have hnone : r.entries.lookup id = none := get?_eq_none_iff.2 h
  rw [insert, if_neg (by simp [hn]), ids, put_of_lookup_eq_none hnone, List.map_append]
  rfl

theorem ids_erase : (r.erase id).ids = r.ids.erase id := by
  simp only [ids, erase]
  induction r.entries with
  | nil => rfl
  | cons entry rest ih =>
    by_cases hk : entry.1 = id
    · rw [List.eraseP_cons_of_pos (by simpa using hk), List.map_cons, hk, List.erase_cons_head]
    · rw [List.eraseP_cons_of_neg (by simpa using hk), List.map_cons, List.map_cons, ih,
        List.erase_cons_tail (by simpa using hk)]

theorem insert_of_isEmpty (h : path.isEmpty = true) : r.insert id path = r := if_pos h

theorem erase_of_not_mem (h : id ∉ r.ids) : r.erase id = r := by
  rw [erase, List.eraseP_of_forall_not]
  intro entry hentry hk
  exact h (List.mem_map.2 ⟨entry, hentry, by simpa using hk⟩)

/-- To erase an id changes nothing only where it is not there. -/
theorem erase_eq_self_iff : r.erase id = r ↔ id ∉ r.ids := by
  refine ⟨fun h hm => ?_, erase_of_not_mem⟩
  have hfewer := List.length_erase_of_mem hm
  have hsome := List.length_pos_of_mem hm
  rw [← ids_erase, h] at hfewer
  omega

/-- An edit has no effect on what is kept under other ids, nor on their order. -/
theorem get?_edit_of_ne (h : other ≠ e.id) : (r.edit e).get? other = r.get? other := by
  cases e with
  | insert id path =>
    cases hn : path.isEmpty with
    | true => rw [edit, insert_of_isEmpty hn]
    | false => exact (get?_insert hn).trans (if_neg h)
  | erase id => exact get?_erase_of_ne h

theorem filter_ids_edit (r : Registry) (e : Edit) :
    (r.edit e).ids.filter (· != e.id) = r.ids.filter (· != e.id) := by
  cases e with
  | insert id path =>
    change (r.insert id path).ids.filter (· != id) = _
    by_cases hm : id ∈ r.ids
    · rw [ids_insert_of_mem hm]
      rfl
    · cases hn : path.isEmpty with
      | true => rw [insert_of_isEmpty hn]; rfl
      | false =>
        rw [ids_insert_of_not_mem hn hm, List.filter_append]
        simp [Edit.id]
  | erase id =>
    change (r.erase id).ids.filter (· != id) = r.ids.filter (· != id)
    rw [ids_erase]
    induction r.ids with
    | nil => rfl
    | cons first rest ih =>
      by_cases hk : first = id
      · simp [hk]
      · rw [List.erase_cons_tail (by simpa using hk), List.filter_cons, List.filter_cons, ih]

/-- The registry is what the edits make of an empty one: an ordered map without empty paths. -/
structure Recounts (r : Registry) (edits : List Edit) : Prop where
  nodup : r.ids.Nodup
  listed : ∀ id, id ∈ r.ids ↔ ∃ path, Kept edits id path
  order : InOrder edits r.ids
  get? : ∀ id path, r.get? id = some path ↔ Kept edits id path
  contains : ∀ id, r.contains id = true ↔ id ∈ r.ids
  size : r.size = r.ids.length
  isEmpty : r.isEmpty = true ↔ r.ids = []
  filled : ∀ entry ∈ r.entries, entry.2.isEmpty = false

theorem recounts_empty : Recounts empty [] :=
  ⟨List.nodup_nil, fun id => by simp [empty, ids, not_kept_nil],
    ⟨fun _ => 0, by simp [empty, ids], List.Pairwise.nil⟩,
    fun id path => by simp [empty, Registry.get?, not_kept_nil],
    fun id => contains_iff_mem_ids, rfl, by simp [empty, Registry.isEmpty, ids], by simp [empty]⟩

/-- What the ids, their order and the paths come to in one more edit gives the rest. -/
theorem Recounts.of_get? (hnodup : r.ids.Nodup) (horder : InOrder edits r.ids)
    (hget : ∀ id path, r.get? id = some path ↔ Kept edits id path)
    (hfilled : ∀ entry ∈ r.entries, entry.2.isEmpty = false) : Recounts r edits := by
  refine ⟨hnodup, fun id => ?_, horder, hget, fun _ => contains_iff_mem_ids, ?_, ?_, hfilled⟩
  · rw [← contains_iff_mem_ids, Registry.contains, Option.isSome_iff_exists]
    exact exists_congr (hget id)
  · exact (List.length_map _).symm
  · rw [Registry.isEmpty, List.isEmpty_iff, ids, List.map_eq_nil_iff]

theorem Recounts.insert (h : Recounts r edits) (hn : path.isEmpty = false) :
    Recounts (r.insert id path) (edits ++ [.insert id path]) := by
  have hget : ∀ other found, (r.insert id path).get? other = some found ↔
      Kept (edits ++ [.insert id path]) other found := by
    intro other found
    rw [get?_insert hn, kept_concat, Edit.insert.injEq]
    by_cases ho : other = id
    · subst ho
      simp only [if_true, Option.some.injEq, Edit.touches, hn, beq_self_eq_true, true_and]
      constructor
      · rintro rfl
        exact Or.inl ⟨rfl, hn⟩
      · rintro (⟨he, -⟩ | ⟨ht, -⟩)
        · exact he
        · cases ht
    · have hid : id ≠ other := fun he => ho he.symm
      rw [if_neg ho, h.get?]
      simp [hid, Edit.touches]
  have hfilled : ∀ entry ∈ (r.insert id path).entries, entry.2.isEmpty = false := by
    intro entry hentry
    rcases mem_insert hentry with hentry | ⟨rfl, he⟩
    · exact h.filled entry hentry
    · exact he
  by_cases hm : id ∈ r.ids
  · have hids : (r.insert id path).ids = r.ids := ids_insert_of_mem hm
    exact .of_get? (hids ▸ h.nodup) (hids ▸ h.order.stays nofun) hget hfilled
  · have hids := ids_insert_of_not_mem hn hm
    have habsent : ∀ path, ¬Kept edits id path :=
      fun path hk => hm ((h.listed id).2 ⟨path, hk⟩)
    refine .of_get? ?_ (hids ▸ h.order.enters hn hm habsent) hget hfilled
    rw [hids, List.nodup_append]
    refine ⟨h.nodup, List.pairwise_singleton _ id, fun other ho last hl he => hm ?_⟩
    rwa [← List.mem_singleton.1 hl, ← he]

theorem Recounts.erase (h : Recounts r edits) : Recounts (r.erase id) (edits ++ [.erase id]) := by
  have hids : (r.erase id).ids = r.ids.erase id := ids_erase
  have hget : ∀ other found, (r.erase id).get? other = some found ↔
      Kept (edits ++ [.erase id]) other found := by
    intro other found
    rw [kept_concat]
    by_cases ho : other = id
    · subst ho
      have hnone : (r.erase other).get? other = none := by
        rw [get?_eq_none_iff, hids]
        exact h.nodup.not_mem_erase
      simp [hnone, Edit.touches]
    · have hid : id ≠ other := fun he => ho he.symm
      rw [get?_erase_of_ne ho, h.get?]
      simp [Edit.touches, hid]
  have hothers : ∀ other ∈ r.ids.erase id, Edit.erase id ≠ .erase other := by
    rintro other ho he
    exact (h.nodup.mem_erase_iff.1 ho).1 (Edit.erase.inj he).symm
  have horder := (h.order.sublist List.erase_sublist).stays hothers
  exact .of_get? (hids ▸ h.nodup.erase id) (hids ▸ horder) hget
    fun entry hentry => h.filled entry (mem_erase hentry)

theorem Recounts.edit (h : Recounts r edits) (e : Edit) : Recounts (r.edit e) (edits ++ [e]) := by
  cases e with
  | erase id => exact h.erase
  | insert id path =>
    cases hn : path.isEmpty with
    | false => exact h.insert hn
    | true =>
      -- An empty path touches nothing, and the ids that came in are where they were.
      change Recounts (r.insert id path) _
      rw [insert_of_isEmpty hn]
      refine .of_get? h.nodup (h.order.stays nofun) (fun other found => ?_) h.filled
      rw [kept_concat, h.get?]
      have hnot : ¬(Edit.insert id path = .insert other found ∧ found.isEmpty = false) := by
        rintro ⟨he, hf⟩
        cases he
        rw [hn] at hf
        cases hf
      have hleft : (Edit.insert id path).touches other = false := by simp [Edit.touches, hn]
      rw [or_iff_right hnot, and_iff_right hleft]

theorem Recounts.foldl (h : Recounts r edits) (later : List Edit) :
    Recounts (later.foldl Registry.edit r) (edits ++ later) := by
  induction later generalizing r edits with
  | nil => rwa [List.append_nil]
  | cons e rest ih =>
    rw [List.append_cons]
    exact ih (h.edit e)

end Registry

def Action.edit? : Action → Option Edit
  | .request (.register id path) => some (.insert id path)
  | .request (.remove id) => some (.erase id)
  | _ => none

namespace Controller

variable {c : Controller}

theorem registry_after (h : c.Consistent) (actions : List Action) :
    (c.after actions).shared.registry =
      (actions.filterMap Action.edit?).foldl Registry.edit c.shared.registry := by
  induction actions generalizing c with
  | nil => rfl
  | cons a rest ih =>
    refine (ih (h.act a)).trans ?_
    cases a with
    | engine =>
      have hsame : (c.act .engine).1.shared.registry = c.shared.registry := h.turn.frame.1
      rw [List.filterMap_cons_none rfl, hsame]
    | request r => cases r <;> rfl

end Controller

namespace Registry

/-- A registry is an ordered map without empty paths: whatever is inserted and erased, it lists each
id whose last edit inserted a path, once and in the order in which they came in, and keeps that path
under it. An empty path and the erasing of what is not there change nothing, and no edit touches the
paths of other ids or their order. The registry of a controller is the one of the edits that its
callers asked for. -/
theorem registry_recounts_edits :
    (∀ edits, Recounts (ofEdits edits) edits) ∧
    (∀ edits e, let r := ofEdits edits
      (∀ id path, e = .insert id path → path.isEmpty = true → r.edit e = r) ∧
      (∀ id, e = .erase id → id ∉ r.ids → r.edit e = r) ∧
      (∀ other, other ≠ e.id → (r.edit e).get? other = r.get? other) ∧
      (r.edit e).ids.filter (· != e.id) = r.ids.filter (· != e.id)) ∧
    ∀ params converter chassis actions,
      ((Controller.fresh params converter chassis).after actions).shared.registry =
        ofEdits (actions.filterMap Action.edit?) := by
  refine ⟨recounts_empty.foldl, fun edits e => ⟨?_, ?_, ?_, filter_ids_edit _ e⟩, ?_⟩
  · rintro id path rfl hn
    exact insert_of_isEmpty hn
  · rintro id rfl hm
    exact erase_of_not_mem hm
  · exact fun other ho => get?_edit_of_ne ho
  · intro params converter chassis actions
    exact Controller.registry_after (Controller.consistent_fresh params converter chassis) actions

end Registry

end SkidSteer
