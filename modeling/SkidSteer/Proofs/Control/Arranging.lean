import SkidSteer.Proofs.Control.Atomics

namespace SkidSteer

/-- Nothing is done for the second call before something is done for the first. -/
def Precedes (deeds : List Deed) (m n : CallId) : Prop :=
  deeds.Pairwise fun x y => ¬(x.isOf n ∧ y.isOf m)

/-- Between the halves of a reset something keeps the cancel from waiting, and after that, or at
once, something keeps the enabling from coming early. -/
def Torn (deeds : List Deed) (m : CallId) : Prop :=
  ∃ first second start later, first.isOf m ∧ second.isOf m ∧ start.atomic.blocksCancel ∧
    (∃ x ∈ start :: later, x.atomic.blocksEnable x.reply) ∧
    (first :: (start :: later ++ [second])).Sublist deeds

/-- Nothing else was done for the same call. -/
def alone (deeds : List Deed) (e : Deed) : Bool :=
  match e.call with
  | none => true
  | some m => (deeds.filter (Deed.isOf m)).length ≤ 1

/-- Every call does one thing, or the two of a reset. -/
def Paired (deeds : List Deed) : Prop :=
  ∀ m, (deeds.filter (Deed.isOf m)).length ≤ 1 ∨
    ∃ x y, deeds.filter (Deed.isOf m) = [x, y] ∧ x.atomic = .ask .cancel ∧ y.atomic = .ask .enable

/-- The deeds in an order in which the halves of no reset are apart, unless it is torn. -/
structure Arranged (deeds order : List Deed) : Prop where
  perm : order.Perm deeds
  runs : ∀ {c d : Controller}, c.Runs deeds d → c.Runs order d
  precedes : ∀ {m n}, m ≠ n → Precedes deeds m n → Precedes order m n
  others : order.filter (alone deeds) = deeds.filter (alone deeds)
  whole : ∀ {m}, ¬Torn deeds m → deeds.filter (Deed.isOf m) <:+: order

theorem infix_of_not_mem {α : Type} {block front back : List α} {a : α} (ha : a ∉ block)
    (h : block <:+: front ++ a :: back) : block <:+: front ∨ block <:+: back := by
  obtain ⟨before, after, h⟩ := h
  rcases List.append_eq_append_iff.1 h with ⟨rest, rfl, -⟩ | ⟨rest, hfront, hback⟩
  · exact Or.inl ⟨before, rest, rfl⟩
  · cases rest with
    | nil =>
      rw [List.append_nil] at hfront
      exact Or.inl ⟨before, [], by rw [List.append_nil, hfront]⟩
    | cons b rest =>
      obtain ⟨rfl, rfl⟩ := List.cons.inj hback
      rcases List.append_eq_append_iff.1 hfront with ⟨inner, -, rfl⟩ | ⟨inner, -, hinner⟩
      · simp at ha
      · cases inner with
        | nil =>
          rw [List.nil_append] at hinner
          simp [← hinner] at ha
        | cons b inner =>
          obtain ⟨rfl, rfl⟩ := List.cons.inj hinner
          exact Or.inr ⟨inner, after, rfl⟩

theorem infix_of_length_le_one {α : Type} {block whole : List α} (hl : block.length ≤ 1)
    (hm : ∀ x ∈ block, x ∈ whole) : block <:+: whole := by
  match block with
  | [] => exact List.nil_infix
  | [x] =>
    obtain ⟨before, after, rfl⟩ := List.append_of_mem (hm x (by simp))
    exact ⟨before, after, by simp⟩

theorem filter_eq_of_imp {α : Type} {p q : α → Bool} {first second : List α}
    (hpq : ∀ x, p x → q x) (h : first.filter q = second.filter q) :
    first.filter p = second.filter p := by
  have hboth : ∀ l : List α, l.filter p = (l.filter q).filter p := by
    intro l
    rw [List.filter_filter]
    refine List.filter_congr fun x _ => ?_
    cases hp : p x with
    | false => rfl
    | true => simp [hpq x hp]
  rw [hboth, hboth second, h]

variable {e last : Deed} {deeds rest order : List Deed} {m : CallId}

theorem isOf_of_filter {block : List Deed} {x : Deed} (h : deeds.filter (Deed.isOf m) = block)
    (hx : x ∈ block) : x.isOf m := by
  rw [← h] at hx
  exact (List.mem_filter.1 hx).2

theorem alone_of_cons {x : Deed} (h : alone (e :: rest) x) : alone rest x := by
  unfold alone at h ⊢
  cases hx : x.call with
  | none => rfl
  | some m =>
    simp only [hx, List.filter_cons, decide_eq_true_eq] at h ⊢
    split at h
    · simp only [List.length_cons] at h
      omega
    · exact h

theorem Torn.cons (h : Torn rest m) : Torn (e :: rest) m := by
  obtain ⟨first, second, start, later, hf, hs, hstart, hx, hsub⟩ := h
  exact ⟨first, second, start, later, hf, hs, hstart, hx, hsub.cons e⟩

theorem Paired.tail (h : Paired (e :: rest)) : Paired rest := by
  intro m
  have hm := h m
  rw [List.filter_cons] at hm
  split at hm
  · left
    rcases hm with hm | ⟨x, y, hm, -⟩
    · rw [List.length_cons] at hm
      omega
    · obtain ⟨-, hm⟩ := List.cons.inj hm
      simp [hm]
  · exact hm

/-- Only the halves of a reset share their call with something else. -/
theorem Paired.alone (h : Paired deeds) {x : Deed} (hx : x ∈ deeds)
    (hh : x.atomic.isHalf = false) : alone deeds x := by
  unfold SkidSteer.alone
  cases hc : x.call with
  | none => rfl
  | some m =>
    rcases h m with hm | ⟨a, b, hm, ha, hb⟩
    · simpa using hm
    · have hmem : x ∈ deeds.filter (Deed.isOf m) := List.mem_filter.2 ⟨hx, Deed.isOf_iff.2 hc⟩
      rw [hm] at hmem
      simp only [List.mem_cons, List.not_mem_nil, or_false] at hmem
      rcases hmem with rfl | rfl
      · simp [ha, Atomic.isHalf] at hh
      · simp [hb, Atomic.isHalf] at hh

theorem Arranged.cons (h : Arranged rest order)
    (hone : ∀ m, e.isOf m → ¬Torn (e :: rest) m → rest.filter (Deed.isOf m) = []) :
    Arranged (e :: rest) (e :: order) := by
  refine ⟨h.perm.cons e, fun ⟨hreply, hruns⟩ => ⟨hreply, h.runs hruns⟩, ?_, ?_, ?_⟩
  · intro m n hne hp
    obtain ⟨hhead, htail⟩ := List.pairwise_cons.1 hp
    exact List.pairwise_cons.2
      ⟨fun y hy => hhead y (h.perm.mem_iff.1 hy), h.precedes hne htail⟩
  · have hsame := filter_eq_of_imp (fun x => alone_of_cons (e := e)) h.others
    rw [List.filter_cons, List.filter_cons, hsame]
  · intro m ht
    cases he : e.isOf m with
    | true =>
      rw [List.filter_cons_of_pos he, hone m he ht]
      exact ⟨[], order, rfl⟩
    | false =>
      rw [List.filter_cons_of_neg (by simp [he])]
      exact (h.whole fun hr => ht hr.cons).trans (List.suffix_cons e order).isInfix

/-- What stands before the second half of a reset that is not torn: a part that the cancel may wait
for, and a part that enabling may come before. -/
theorem exists_split_of_not_torn {before after : List Deed} (hp : Paired rest)
    (h : Arranged rest (before ++ last :: after)) (ht : ¬Torn (e :: rest) m) (he : e.isOf m)
    (hl : last.isOf m) (halone : alone rest last) :
    ∃ early late, before = early ++ late ∧ (∀ x ∈ early, x.atomic.blocksCancel = false) ∧
      (∀ x ∈ late, x.atomic.blocksEnable x.reply = false) ∧
      ∀ x ∈ late.head?, x.atomic.blocksCancel := by
  -- The late part begins with the first deed that the cancel cannot wait for.
  cases hfind : before.find? (·.atomic.blocksCancel) with
  | none =>
    refine ⟨before, [], (List.append_nil _).symm, ?_, by simp, by simp⟩
    simpa using hfind
  | some start =>
    obtain ⟨hstart, early, late, rfl, hearly⟩ := List.find?_eq_some_iff_append.1 hfind
    refine ⟨early, start :: late, rfl, by simpa using hearly, ?_, by simpa using hstart⟩
    intro x hx
    rw [Bool.eq_false_iff]
    intro hblocks
    have hmem : ∀ y ∈ start :: late, y ∈ rest := by
      intro y hy
      exact h.perm.mem_iff.1 (List.mem_append_left _ (List.mem_append_right _ hy))
    have hs : alone rest start :=
      hp.alone (hmem start List.mem_cons_self) (Atomic.isHalf_of_blocksCancel hstart)
    have hx' : alone rest x := hp.alone (hmem x hx) (Atomic.isHalf_of_blocksEnable hblocks)
    -- A deed in the late part that blocks the enabling would tear the reset.
    refine ht ⟨e, last, start, late.filter (alone rest), he, hl, hstart, ⟨x, ?_, hblocks⟩, ?_⟩
    · rcases List.mem_cons.1 hx with rfl | hx
      · exact List.mem_cons_self
      · exact List.mem_cons_of_mem _ (List.mem_filter.2 ⟨hx, hx'⟩)
    · apply List.Sublist.cons_cons
      have hkept : (start :: late ++ [last]).filter (alone rest) =
          start :: late.filter (alone rest) ++ [last] := by
        simp [List.filter_append, hs, halone]
      rw [← hkept]
      refine List.Sublist.trans ?_ (List.filter_sublist (p := alone rest) (l := rest))
      rw [← h.others]
      apply List.Sublist.filter
      rw [List.append_assoc]
      refine List.Sublist.trans ?_ (List.sublist_append_right early _)
      simp

section Joining

variable {early late after : List Deed}

theorem perm_joined :
    (early ++ e :: last :: (late ++ after)).Perm (e :: (early ++ late ++ last :: after)) := by
  refine List.perm_middle.trans (List.Perm.cons e ?_)
  rw [List.append_assoc]
  exact List.Perm.append_left early List.perm_middle.symm

theorem Precedes.joined {k n : CallId} (he : e.call = some m) (hl : last.call = some m)
    (hfirst : ∀ x ∈ early ++ late ++ last :: after, ¬(e.isOf n ∧ x.isOf k))
    (h : Precedes (early ++ late ++ last :: after) k n) :
    Precedes (early ++ e :: last :: (late ++ after)) k n := by
  have hsame : ∀ i, e.isOf i = last.isOf i := by simp [Deed.isOf, he, hl]
  simp only [Precedes, List.pairwise_append, List.pairwise_cons, List.mem_append, List.mem_cons]
    at h ⊢
  obtain ⟨⟨hearly, hlate, hbefore⟩, ⟨-, hafter⟩, hcross⟩ := h
  refine ⟨hearly, ⟨?_, ?_, hlate, hafter, ?_⟩, ?_⟩
  · rintro x (rfl | hx | hx) <;> exact hfirst x (by simp [*])
  · rintro x (hx | hx) <;> exact hsame n ▸ hfirst x (by simp [*])
  · exact fun x hx y hy => hcross x (Or.inr hx) y (Or.inr hy)
  · rintro x hx y (rfl | rfl | hy | hy)
    · rw [hsame]
      exact hcross x (Or.inl hx) last (Or.inl rfl)
    · exact hcross x (Or.inl hx) y (Or.inl rfl)
    · exact hbefore x hx y hy
    · exact hcross x (Or.inl hx) y (Or.inr hy)

theorem infix_joined {block : List Deed} (h : block <:+: early ++ late ++ last :: after)
    (hl : last ∉ block) (hhead : ∀ x ∈ late.head?, x ∉ block) :
    block <:+: early ++ e :: last :: (late ++ after) := by
  rcases infix_of_not_mem hl h with h | h
  · cases late with
    | nil =>
      rw [List.append_nil] at h
      exact h.trans (List.prefix_append early _).isInfix
    | cons start late =>
      rcases infix_of_not_mem (hhead start rfl) h with h | h
      · exact h.trans (List.prefix_append early _).isInfix
      · exact h.trans ⟨early ++ [e, last, start], after, by simp⟩
  · exact h.trans ⟨early ++ e :: last :: late, [], by simp⟩

theorem runs_joined (he : e.atomic = .ask .cancel) (hl : last.atomic = .ask .enable)
    (hearly : ∀ x ∈ early, x.atomic.blocksCancel = false)
    (hlate : ∀ x ∈ late, x.atomic.blocksEnable x.reply = false) {c d : Controller}
    (h : c.Runs (e :: (early ++ late ++ last :: after)) d) :
    c.Runs (early ++ e :: last :: (late ++ after)) d := by
  rw [List.append_assoc] at h
  have hdelayed := Controller.Runs.delay_cancel he hearly h
  obtain ⟨between, hbefore, hreply, hruns⟩ := Controller.Runs_append.1 hdelayed
  exact Controller.Runs_append.2
    ⟨between, hbefore, hreply, Controller.Runs.advance_enable hl hlate hruns⟩

/-- The other calls stay as whole as they were, since the late part does not begin with a half. -/
theorem Arranged.whole_joined (h : Arranged rest (early ++ late ++ last :: after))
    (hp : Paired (e :: rest)) (he : e.call = some m) (hl : last.call = some m)
    (hhead : ∀ x ∈ late.head?, x.atomic.blocksCancel) {k : CallId} (hkm : k ≠ m)
    (hk : ¬Torn (e :: rest) k) :
    (e :: rest).filter (Deed.isOf k) <:+: early ++ e :: last :: (late ++ after) := by
  have hother : ∀ x : Deed, x.call = some m → x.isOf k = false := by
    intro x hx
    rw [Bool.eq_false_iff, ne_eq, Deed.isOf_iff, hx, Option.some.injEq]
    exact fun hmk => hkm hmk.symm
  rcases hp k with hle | ⟨x, y, hxy, hx, hy⟩
  · refine infix_of_length_le_one hle fun x hx => ?_
    exact (perm_joined.trans (h.perm.cons e)).mem_iff.2 (List.mem_filter.1 hx).1
  · have hrest := h.whole fun hr => hk hr.cons
    rw [← List.filter_cons_of_neg (a := e) (by simp [hother e he])] at hrest
    refine infix_joined hrest ?_ ?_
    · intro hmem
      have hlast := (List.mem_filter.1 hmem).2
      rw [hother last hl] at hlast
      cases hlast
    · intro z hz hmem
      rw [hxy] at hmem
      have hhalf := Atomic.isHalf_of_blocksCancel (hhead z hz)
      simp only [List.mem_cons, List.not_mem_nil, or_false] at hmem
      rcases hmem with rfl | rfl <;> simp [hx, hy, Atomic.isHalf] at hhalf

/-- The cancel waits and the enabling comes early, and the two meet. -/
theorem Arranged.join (h : Arranged rest (early ++ late ++ last :: after)) (hp : Paired (e :: rest))
    (hm : (e :: rest).filter (Deed.isOf m) = [e, last])
    (hearly : ∀ x ∈ early, x.atomic.blocksCancel = false)
    (hlate : ∀ x ∈ late, x.atomic.blocksEnable x.reply = false)
    (hhead : ∀ x ∈ late.head?, x.atomic.blocksCancel) :
    Arranged (e :: rest) (early ++ e :: last :: (late ++ after)) := by
  have he : e.call = some m := Deed.isOf_iff.1 (isOf_of_filter hm (by simp))
  have hl : last.call = some m := Deed.isOf_iff.1 (isOf_of_filter hm (by simp))
  obtain ⟨hcancel, henable⟩ : e.atomic = .ask .cancel ∧ last.atomic = .ask .enable := by
    rcases hp m with hle | ⟨x, y, hxy, hx, hy⟩
    · simp [hm] at hle
    · rw [hm] at hxy
      cases hxy
      exact ⟨hx, hy⟩
  refine ⟨perm_joined.trans (h.perm.cons e),
    fun hruns => runs_joined hcancel henable hearly hlate ⟨hruns.1, h.runs hruns.2⟩, ?_, ?_, ?_⟩
  · intro k n hne hkn
    obtain ⟨hfirst, htail⟩ := List.pairwise_cons.1 hkn
    exact (h.precedes hne htail).joined he hl fun x hx => hfirst x (h.perm.mem_iff.1 hx)
  · have hnot : ∀ x : Deed, x.call = some m → alone (e :: rest) x = false := by
      intro x hx
      simp [alone, hx, hm]
    have hsame := filter_eq_of_imp (fun x => alone_of_cons (e := e)) h.others
    rw [List.filter_cons_of_neg (by simp [hnot e he]), ← hsame]
    simp [List.filter_append, hnot e he, hnot last hl]
  · intro k hk
    by_cases hkm : k = m
    · subst hkm
      rw [hm]
      exact ⟨early, late ++ after, by simp⟩
    · exact h.whole_joined hp he hl hhead hkm hk

end Joining

/-- What was done for paired calls can be arranged. -/
theorem exists_arranged (hp : Paired deeds) : ∃ order, Arranged deeds order := by
  induction deeds with
  | nil =>
    exact ⟨[], .nil, id, fun _ h => h, rfl, fun _ => List.nil_infix⟩
  | cons e rest ih =>
    obtain ⟨order, h⟩ := ih hp.tail
    -- joined where the first deed begins a reset that is whole and not torn, and put first otherwise
    by_cases hj : ∃ m last, (e :: rest).filter (Deed.isOf m) = [e, last] ∧ ¬Torn (e :: rest) m
    · obtain ⟨m, last, hm, ht⟩ := hj
      have he : e.isOf m := isOf_of_filter hm (by simp)
      have hm' : rest.filter (Deed.isOf m) = [last] := by
        rw [List.filter_cons_of_pos he] at hm
        exact (List.cons.inj hm).2
      have hl : last ∈ rest.filter (Deed.isOf m) := by rw [hm']; simp
      obtain ⟨hmem, hlast⟩ := List.mem_filter.1 hl
      have halone : alone rest last := by
        simp [alone, Deed.isOf_iff.1 hlast, hm']
      obtain ⟨before, after, rfl⟩ := List.append_of_mem (h.perm.mem_iff.2 hmem)
      obtain ⟨early, late, rfl, hearly, hlate, hhead⟩ :=
        exists_split_of_not_torn hp.tail h ht he hlast halone
      exact ⟨_, h.join hp hm hearly hlate hhead⟩
    · refine ⟨e :: order, h.cons fun m he ht => ?_⟩
      rcases hp m with hm | ⟨x, y, hm, -⟩
      · rw [List.filter_cons_of_pos he, List.length_cons] at hm
        exact List.length_eq_zero_iff.1 (by omega)
      · rw [List.filter_cons_of_pos he] at hm
        obtain ⟨rfl, hrest⟩ := List.cons.inj hm
        exact (hj ⟨m, y, by rw [List.filter_cons_of_pos he, hrest], ht⟩).elim

end SkidSteer
