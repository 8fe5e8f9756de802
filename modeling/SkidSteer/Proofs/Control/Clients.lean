import SkidSteer.Proofs.Control.Arranging
import SkidSteer.Proofs.Control.Disabling
import Mathlib.Data.List.Permutation

namespace SkidSteer

/-- A call of a client. Planning and loading touch the shared state only in the end, when they
register what they got. -/
inductive Call where
  | setTarget (id : String) (options : RunOptions)
  | controllerSet (id : String)
  | setDisabled (disabled : Bool)
  | reset
  | remove (id : String)
  | register (id : String) (path : Path)
  | getTarget
  | getPaths
  | getPath (id : String)

namespace Call

def atomics : Call → List Atomic
  | .setTarget id options => [.ask (.setTarget ⟨id, options⟩)]
  | .controllerSet id => [.ask (.setTarget ⟨id, .forward⟩)]
  | .setDisabled disabled => [.ask (.setDisabled disabled)]
  | .reset => [.ask .cancel, .ask .enable]
  | .remove id => [.ask (.remove id)]
  | .register id path => [.ask (.register id path)]
  | .getTarget => [.getTarget]
  | .getPaths => [.getPaths]
  | .getPath id => [.getPath id]

theorem atomics_cases (call : Call) :
    call.atomics = [.ask .cancel, .ask .enable] ∨ ∃ a, call.atomics = [a] := by
  cases call with
  | reset => exact Or.inl rfl
  | _ => exact Or.inr ⟨_, rfl⟩

end Call

/-- What a client has to do for its calls, which are numbered from `number` on. -/
def issued (client number : Nat) : List Call → List (CallId × Atomic)
  | [] => []
  | call :: rest =>
    call.atomics.map (⟨client, number⟩, ·) ++ issued client (number + 1) rest

inductive Mover where
  | client (k : Nat)
  | engine

namespace Controller

/-- What a step of the engine does to the state of the callers. -/
def taking (c : Controller) : List Deed :=
  if c.shared.pending && !c.step.1.shared.pending then
    [⟨none, .takeUp, .taken c.shared.wanted⟩]
  else []

/-- The clients do what each has left to do, in the order in which they come, between steps of the
engine. -/
def interleave (c : Controller) (left : Nat → List (CallId × Atomic)) :
    List Mover → Controller × List Deed
  | [] => (c, [])
  | .engine :: rest =>
    let (ended, later) := c.step.1.interleave left rest
    (ended, c.taking ++ later)
  | .client k :: rest =>
    match left k with
    | [] => c.interleave left rest
    | (call, atomic) :: others =>
      let (next, reply) := c.perform atomic
      let (ended, later) := next.interleave (fun j => if j = k then others else left j) rest
      (ended, ⟨some call, atomic, reply⟩ :: later)

end Controller

/-- An order in which calls can have been made one after the other: with their replies and what they
left behind, in the order of each client, and with no call before one that was over by then. The
calls of which `whole` holds are made without anything in between. -/
structure Linearizes (start ended : Controller) (deeds order : List Deed) (whole : CallId → Prop) :
    Prop where
  perm : order.Perm deeds
  runs : ∃ last, start.Runs order last ∧ last.shared.facade = ended.shared.facade
  own : ∀ client i j, i < j → Precedes order ⟨client, i⟩ ⟨client, j⟩
  precedes : ∀ m n, m ≠ n → Precedes deeds m n → Precedes order m n
  whole : ∀ m, whole m → deeds.filter (Deed.isOf m) <:+: order

def CallId.atomic? (m : CallId) (x : CallId × Atomic) : Option Atomic :=
  if x.1 = m then some x.2 else none

def Deed.own? (client : Nat) (e : Deed) : Option (CallId × Atomic) :=
  e.call.bind fun m => if m.client = client then some (m, e.atomic) else none

theorem Deed.own?_of_isOf {m : CallId} {e : Deed} (h : e.isOf m) :
    e.own? m.client = some (m, e.atomic) := by
  simp [own?, Deed.isOf_iff.1 h]

theorem Deed.call_of_own? {client : Nat} {e : Deed} {x : CallId × Atomic}
    (h : e.own? client = some x) : e.call = some x.1 := by
  obtain ⟨m, hm, hx⟩ := Option.bind_eq_some_iff.1 h
  split at hx
  · cases hx
    exact hm
  · cases hx

section Issued

variable {client number : Nat} {calls : List Call}

theorem mem_issued {x : CallId × Atomic} (h : x ∈ issued client number calls) :
    x.1.client = client ∧ number ≤ x.1.number := by
  induction calls generalizing number with
  | nil => cases h
  | cons call rest ih =>
    rcases List.mem_append.1 h with h | h
    · obtain ⟨a, -, rfl⟩ := List.mem_map.1 h
      exact ⟨rfl, Nat.le_refl _⟩
    · obtain ⟨hclient, hnumber⟩ := ih h
      exact ⟨hclient, by omega⟩

theorem issued_sorted :
    (issued client number calls).Pairwise fun x y => x.1.number ≤ y.1.number := by
  induction calls generalizing number with
  | nil => exact .nil
  | cons call rest ih =>
    refine List.pairwise_append.2 ⟨?_, ih, ?_⟩
    · rw [List.pairwise_map]
      exact List.pairwise_of_forall fun _ _ => Nat.le_refl _
    · intro x hx y hy
      obtain ⟨a, -, rfl⟩ := List.mem_map.1 hx
      have := (mem_issued hy).2
      exact Nat.le_of_succ_le this

/-- Under one number stands one call. -/
theorem issued_for (client number : Nat) (calls : List Call) (m : CallId) :
    (issued client number calls).filterMap m.atomic? = [] ∨
      ∃ call ∈ calls, (issued client number calls).filterMap m.atomic? = call.atomics := by
  induction calls generalizing number with
  | nil => exact Or.inl rfl
  | cons call rest ih =>
    rw [issued, List.filterMap_append, List.filterMap_map]
    by_cases hm : (⟨client, number⟩ : CallId) = m
    · have hrest : (issued client (number + 1) rest).filterMap m.atomic? = [] := by
        rw [List.filterMap_eq_nil_iff]
        intro x hx
        have := (mem_issued hx).2
        refine if_neg fun he => ?_
        rw [he, ← hm] at this
        exact Nat.not_succ_le_self number this
      refine Or.inr ⟨call, List.mem_cons_self, ?_⟩
      rw [hrest, List.append_nil]
      simp [CallId.atomic?, hm]
    · have hcall : call.atomics.filterMap
          (m.atomic? ∘ ((⟨client, number⟩ : CallId), ·)) = [] := by
        simp [Function.comp_def, CallId.atomic?, hm]
      rw [hcall, List.nil_append]
      rcases ih (number + 1) with h | ⟨other, hmem, h⟩
      · exact Or.inl h
      · exact Or.inr ⟨other, List.mem_cons_of_mem _ hmem, h⟩

end Issued

namespace Controller

variable {c d : Controller} {left : Nat → List (CallId × Atomic)}

theorem Consistent.perform (h : c.Consistent) (a : Atomic) : (c.perform a).1.Consistent := by
  cases a with
  | ask r => cases r <;> exact h.serve _
  | takeUp => exact ⟨fun _ => rfl, h.still, h.index, h.within, h.closing⟩
  | _ => exact h

theorem facade_step (h : c.Consistent) :
    c.step.1.shared.facade = { c.shared.facade with pending := c.step.1.shared.pending } := by
  obtain ⟨hregistry, htarget, hdisabled, -, hcancels⟩ := h.turn.frame
  simp [Shared.facade, *]

/-- A step of the engine does nothing to the state of the callers, unless it takes up a target. -/
theorem runs_taking (h : c.Consistent) (hd : d.shared.facade = c.shared.facade) :
    ∃ next, d.Runs c.taking next ∧ next.shared.facade = c.step.1.shared.facade := by
  rw [facade_step h]
  unfold taking
  cases hp : c.shared.pending with
  | false =>
    have hq : c.step.1.shared.pending = false := pending_act h hp (a := .engine) rfl
    refine ⟨d, rfl, ?_⟩
    rw [hd, hq, ← hp]
    rfl
  | true =>
    cases hq : c.step.1.shared.pending with
    | true =>
      refine ⟨d, rfl, ?_⟩
      rw [hd, ← hp]
      rfl
    | false =>
      obtain ⟨hreply, hfacade⟩ := perform_facade hd .takeUp
      refine ⟨(d.perform .takeUp).1, ⟨?_, rfl⟩, hfacade⟩
      rw [hreply]
      simp [perform, hp]

theorem runs_interleave (h : c.Consistent) (hd : d.shared.facade = c.shared.facade)
    (schedule : List Mover) :
    ∃ last, d.Runs (c.interleave left schedule).2 last ∧
      last.shared.facade = (c.interleave left schedule).1.shared.facade := by
  induction schedule generalizing c d left with
  | nil => exact ⟨d, rfl, hd⟩
  | cons mover rest ih =>
    cases mover with
    | engine =>
      obtain ⟨next, htaking, hnext⟩ := runs_taking h hd
      obtain ⟨last, hruns, hlast⟩ :
          ∃ last, next.Runs (c.step.1.interleave left rest).2 last ∧ last.shared.facade =
            (c.step.1.interleave left rest).1.shared.facade := ih h.step hnext
      exact ⟨last, Runs_append.2 ⟨next, htaking, hruns⟩, hlast⟩
    | client k =>
      cases hk : left k with
      | nil =>
        simp only [interleave, hk]
        exact ih h hd
      | cons first others =>
        simp only [interleave, hk]
        obtain ⟨hreply, hfacade⟩ := perform_facade hd first.2
        obtain ⟨last, hruns, hlast⟩ := ih (h.perform first.2) hfacade
        exact ⟨last, ⟨hreply, hruns⟩, hlast⟩

/-- What is done for a client is the first part of what it had to do. -/
theorem own_interleave (hleft : ∀ k, ∀ x ∈ left k, x.1.client = k) (schedule : List Mover)
    (client : Nat) :
    (c.interleave left schedule).2.filterMap (Deed.own? client) <+: left client := by
  induction schedule generalizing c left with
  | nil => exact List.nil_prefix
  | cons mover rest ih =>
    cases mover with
    | engine =>
      have hnone : c.taking.filterMap (Deed.own? client) = [] := by
        unfold taking
        split <;> rfl
      rw [interleave, List.filterMap_append, hnone]
      exact ih hleft
    | client k =>
      cases hk : left k with
      | nil =>
        simp only [interleave, hk]
        exact ih hleft
      | cons first others =>
        have hothers : ∀ j, ∀ x ∈ if j = k then others else left j, x.1.client = j := by
          intro j x hx
          split at hx
          · rename_i hj
            subst hj
            exact hleft j x (by rw [hk]; exact List.mem_cons_of_mem _ hx)
          · exact hleft j x hx
        have hfirst : first.1.client = k := hleft k first (by rw [hk]; exact List.mem_cons_self)
        have hlater := ih (c := (c.perform first.2).1) hothers
        simp only [interleave, hk]
        -- What another client does is nothing of this one's.
        by_cases hc : client = k
        · subst hc
          rw [List.filterMap_cons_some (b := first) (by simp [Deed.own?, hfirst]), hk]
          simpa using hlater
        · rw [List.filterMap_cons_none]
          · simpa [hc] using hlater
          · simp only [Deed.own?, Option.bind_some, hfirst]
            exact if_neg fun he => hc he.symm

section Calls

variable (calls : Nat → List Call)

theorem own_issued (schedule : List Mover) (client : Nat) :
    (c.interleave (fun k => issued k 0 (calls k)) schedule).2.filterMap (Deed.own? client) <+:
      issued client 0 (calls client) :=
  own_interleave (fun _ _ hx => (mem_issued hx).1) schedule client

/-- A client does nothing for a call before it is done with those it made earlier. -/
theorem precedes_own (schedule : List Mover) {client i j : Nat} (h : i < j) :
    Precedes (c.interleave (fun k => issued k 0 (calls k)) schedule).2 ⟨client, i⟩ ⟨client, j⟩ := by
  have hsorted := issued_sorted.sublist (own_issued calls (c := c) schedule client).sublist
  rw [List.pairwise_filterMap] at hsorted
  refine hsorted.imp fun {x y} hxy ⟨hx, hy⟩ => ?_
  have := hxy _ (Deed.own?_of_isOf hx) _ (Deed.own?_of_isOf hy)
  exact Nat.lt_irrefl i (Nat.lt_of_lt_of_le h this)

theorem atomics_for (deeds : List Deed) (m : CallId) :
    (deeds.filter (Deed.isOf m)).map Deed.atomic =
      (deeds.filterMap (Deed.own? m.client)).filterMap m.atomic? := by
  induction deeds with
  | nil => rfl
  | cons e rest ih =>
    cases he : e.isOf m with
    | true =>
      have hatomic : m.atomic? (m, e.atomic) = some e.atomic := if_pos rfl
      rw [List.filter_cons_of_pos he, List.filterMap_cons_some (Deed.own?_of_isOf he),
        List.filterMap_cons_some hatomic, List.map_cons, ih]
    | false =>
      rw [List.filter_cons_of_neg (by simp [he]), ih]
      cases hown : e.own? m.client with
      | none => rw [List.filterMap_cons_none hown]
      | some x =>
        have hx : x.1 ≠ m := by
          rintro rfl
          rw [Deed.isOf_iff.2 (Deed.call_of_own? hown)] at he
          cases he
        rw [List.filterMap_cons_some hown, List.filterMap_cons_none (f := m.atomic?) (if_neg hx)]

theorem halves_of_prefix {deeds : List Deed}
    (h : deeds.map Deed.atomic <+: [.ask .cancel, .ask .enable]) :
    deeds.length ≤ 1 ∨
      ∃ x y, deeds = [x, y] ∧ x.atomic = .ask .cancel ∧ y.atomic = .ask .enable := by
  match deeds with
  | [] | [_] => exact Or.inl (by simp)
  | [x, y] =>
    simp only [List.map_cons, List.cons_prefix_cons] at h
    exact Or.inr ⟨x, y, rfl, h.1, h.2.1⟩
  | _ :: _ :: _ :: _ =>
    have := h.length_le
    simp at this

theorem paired_interleave (schedule : List Mover) :
    Paired (c.interleave (fun k => issued k 0 (calls k)) schedule).2 := by
  intro m
  have hdone := (own_issued calls (c := c) schedule m.client).filterMap m.atomic?
  rw [← atomics_for] at hdone
  rcases issued_for m.client 0 (calls m.client) m with h | ⟨call, -, h⟩
  · rw [h, List.prefix_nil, List.map_eq_nil_iff] at hdone
    simp [hdone]
  · rw [h] at hdone
    rcases call.atomics_cases with hreset | ⟨a, hone⟩
    · exact halves_of_prefix (hreset ▸ hdone)
    · rw [hone] at hdone
      left
      simpa using hdone.length_le

end Calls

variable (params : Params Float) (converter : Converter Float) (chassis : Drivetrain)

/-- Whatever clients call side by side, what is done for each is the first part of its calls, and the
calls could have been made one after the other, with the same replies and the same state in the end:
in an order that keeps to the order of each client and of calls that do not overlap, in which the
engine takes up targets as it did, and in which a reset stands as one call unless it was torn. Only
the halves of a reset come to stand elsewhere. -/
theorem calls_have_an_order (calls : Nat → List Call) (schedule : List Mover) :
    let start := fresh params converter chassis
    let ended := (start.interleave (fun k => issued k 0 (calls k)) schedule).1
    let deeds := (start.interleave (fun k => issued k 0 (calls k)) schedule).2
    (∀ client, deeds.filterMap (Deed.own? client) <+: issued client 0 (calls client)) ∧
    ∃ order, Linearizes start ended deeds order (fun m => ¬Torn deeds m) ∧
      order.filter (alone deeds) = deeds.filter (alone deeds) := by
  intro start ended deeds
  refine ⟨own_issued calls schedule, ?_⟩
  obtain ⟨order, h⟩ := exists_arranged (paired_interleave calls schedule : Paired deeds)
  obtain ⟨last, hruns, hlast⟩ :=
    runs_interleave (consistent_fresh params converter chassis) rfl schedule
  refine ⟨order, ⟨h.perm, ⟨last, h.runs hruns, hlast⟩, ?_, ?_, ?_⟩, h.others⟩
  · intro client i j hij
    refine h.precedes ?_ (precedes_own calls schedule hij)
    simpa using Nat.ne_of_lt hij
  · exact fun m n => h.precedes
  · exact fun m => h.whole

def overlapping : Nat → List Call
  | 0 => [.reset]
  | 1 => [.controllerSet "A", .setDisabled true]
  | _ => []

def driving : Nat → List Call
  | 0 => [.register "A" twoSamples, .controllerSet "A"]
  | _ => []

/-- The calls of the other client fall between the two halves of a reset: the target that was set
stays, and the controller is enabled though it was disabled after that, which no order of whole calls
explains. And where the engine has taken up a target, no order of the calls alone explains that it
is not pending. -/
theorem calls_without_an_order :
    let start := fresh (.ofGeometry ⟨1.0, 1.0, 1.0⟩ ⟨1.0, 1.0⟩ 1.0) ⟨.linear, 1.0, 1.0, 1.0⟩
      (.ofLimit 1.0)
    let overlapped := start.interleave (fun k => issued k 0 (overlapping k))
      [.client 0, .client 1, .client 1, .client 0]
    let driven := start.interleave (fun k => issued k 0 (driving k)) [.client 0, .client 0, .engine]
    (¬∃ order, Linearizes start overlapped.1 (overlapped.2.filter (·.call.isSome)) order
      fun _ => True) ∧
    ¬∃ order, Linearizes start driven.1 (driven.2.filter (·.call.isSome)) order fun _ => True := by
  intro start overlapped driven
  constructor
  · let cancel : Deed := ⟨some ⟨0, 0⟩, .ask .cancel, .done⟩
    let enable : Deed := ⟨some ⟨0, 0⟩, .ask .enable, .done⟩
    let set : Deed := ⟨some ⟨1, 0⟩, .ask (.setTarget ⟨"A", .forward⟩), .said [.targetUnknown "A"]⟩
    let disable : Deed := ⟨some ⟨1, 1⟩, .ask (.setDisabled true), .done⟩
    rintro ⟨order, hperm, ⟨last, hruns, hlast⟩, hown, -, hwhole⟩
    have hreset : [cancel, enable] <:+: order := hwhole ⟨0, 0⟩ trivial
    obtain ⟨before, after, rfl⟩ := hreset
    have hdeeds : (before ++ cancel :: enable :: after).Perm [cancel, set, disable, enable] := by
      rw [List.append_assoc] at hperm
      exact hperm
    have hrest : (before ++ enable :: after).Perm ([set, disable] ++ [enable]) :=
      (List.perm_middle.symm.trans hdeeds).cons_inv
    have hothers : (before ++ after).Perm [set, disable] :=
      (List.perm_middle.symm.trans (hrest.trans List.perm_append_comm)).cons_inv
    have hclient : Precedes (before ++ after) ⟨1, 0⟩ ⟨1, 1⟩ := by
      refine (hown 1 0 1 Nat.zero_lt_one).sublist ?_
      rw [List.append_assoc]
      exact (List.sublist_append_right [cancel, enable] after).append_left before
    have hsorted : before ++ after = [set, disable] := by
      rcases List.perm_pair.1 hothers with h | h
      · exact h
      · rw [h] at hclient
        simp [Precedes, Deed.isOf, set, disable] at hclient
    -- first, in between, or last
    rcases List.append_eq_cons_iff.1 hsorted with ⟨rfl, rfl⟩ | ⟨front, rfl, h⟩
    · obtain ⟨-, -, -, -, rfl⟩ := hruns
      have hdisabled := congrArg Facade.disabled hlast
      cases hdisabled
    · rcases List.append_eq_cons_iff.1 h.symm with ⟨rfl, rfl⟩ | ⟨back, rfl, hnil⟩
      · obtain ⟨-, -, -, -, rfl⟩ := hruns
        have hdisabled := congrArg Facade.disabled hlast
        cases hdisabled
      · obtain ⟨rfl, rfl⟩ := List.append_eq_nil_iff.1 hnil.symm
        obtain ⟨-, -, -, -, rfl⟩ := hruns
        have htarget := congrArg Facade.target hlast
        cases htarget
  · let register : Deed := ⟨some ⟨0, 0⟩, .ask (.register "A" twoSamples), .done⟩
    let set : Deed :=
      ⟨some ⟨0, 1⟩, .ask (.setTarget ⟨"A", .forward⟩), .said [.targetSet "A" .forward]⟩
    rintro ⟨order, hperm, ⟨last, hruns, hlast⟩, hown, -, -⟩
    have hpair : order.Perm [register, set] := hperm
    rcases List.perm_pair.1 hpair with rfl | rfl
    · obtain ⟨-, -, rfl⟩ := hruns
      have hpending := congrArg Facade.pending hlast
      cases hpending
    · have hown := hown 0 0 1 Nat.zero_lt_one
      simp [Precedes, Deed.isOf, register, set] at hown

end Controller

end SkidSteer
