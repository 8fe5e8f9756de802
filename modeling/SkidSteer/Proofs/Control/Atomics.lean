import SkidSteer.Proofs.Control.Turns

namespace SkidSteer

/-- One section under the lock, or one access to a flag. -/
inductive Atomic where
  | ask (r : Request)
  | getTarget
  | getPaths
  | getPath (id : String)
  /-- The engine takes up the target that is pending. -/
  | takeUp

/-- What the one who does it gets to know. -/
inductive Reply where
  | done
  | said (notices : List Notice)
  | target (id : Option String)
  | paths (ids : List String)
  | path (found : Option Path)
  | taken (found : Option (Target × Path))

/-- The state that the calls are about; the rest of the shared state is the engine's. -/
structure Facade where
  registry : Registry
  target : Option Target
  pending : Bool
  disabled : Bool
  cancelRequests : Nat

def Shared.facade (s : Shared) : Facade :=
  ⟨s.registry, s.target, s.pending, s.disabled, s.cancelRequests⟩

/-- A call is known by its client and its number among the calls of that client. -/
structure CallId where
  client : Nat
  number : Nat
  deriving DecidableEq

/-- Something that was done, for a call or by the engine, and its reply. -/
structure Deed where
  call : Option CallId
  atomic : Atomic
  reply : Reply

namespace Atomic

/-- A cancel cannot wait until after it: it sets, tells or takes up the target. -/
def blocksCancel : Atomic → Bool
  | .ask (.setTarget _) | .getTarget | .takeUp => true
  | _ => false

/-- Enabling cannot come before it: it disables, or was refused because of the flag. -/
def blocksEnable : Atomic → Reply → Bool
  | .ask (.setDisabled true), _ | .ask (.setTarget _), .said [.targetWhileDisabled _] => true
  | _, _ => false

def isHalf : Atomic → Bool
  | .ask .cancel | .ask .enable => true
  | _ => false

theorem isHalf_of_blocksCancel {a : Atomic} (h : a.blocksCancel) : a.isHalf = false := by
  unfold blocksCancel at h
  split at h <;> first | rfl | cases h

theorem isHalf_of_blocksEnable {a : Atomic} {reply : Reply} (h : a.blocksEnable reply) :
    a.isHalf = false := by
  unfold blocksEnable at h
  split at h <;> first | rfl | cases h

end Atomic

namespace Deed

def isOf (m : CallId) (e : Deed) : Bool := e.call == some m

theorem isOf_iff {m : CallId} {e : Deed} : e.isOf m = true ↔ e.call = some m := beq_iff_eq

end Deed

namespace Controller

/-- Does one thing while the engine stands by. -/
def perform (c : Controller) : Atomic → Controller × Reply
  | .ask (.setTarget t) =>
    let (c, notices) := c.setTarget t.id t.options
    (c, .said notices)
  | .ask r => (c.serve r, .done)
  | .getTarget => (c, .target c.target?)
  | .getPaths => (c, .paths c.paths)
  | .getPath id => (c, .path (c.path? id))
  | .takeUp =>
    ({ c with shared := { c.shared with pending := false } },
      if c.shared.pending then .taken c.shared.wanted else .done)

/-- The deeds are what comes of doing one thing after the other, up to `d`. -/
def Runs (c : Controller) : List Deed → Controller → Prop
  | [], d => d = c
  | e :: rest, d => (c.perform e.atomic).2 = e.reply ∧ (c.perform e.atomic).1.Runs rest d

variable {c d : Controller} {e : Deed} {deeds later : List Deed}

theorem Runs_append :
    c.Runs (deeds ++ later) d ↔ ∃ between, c.Runs deeds between ∧ between.Runs later d := by
  induction deeds generalizing c with
  | nil => simp [Runs]
  | cons e rest ih => simp [Runs, ih, and_assoc]

/-- Controllers with the same facade serve their callers alike. -/
theorem perform_facade (h : d.shared.facade = c.shared.facade) (a : Atomic) :
    (d.perform a).2 = (c.perform a).2 ∧
      (d.perform a).1.shared.facade = (c.perform a).1.shared.facade := by
  simp only [Shared.facade, Facade.mk.injEq] at h
  obtain ⟨hregistry, htarget, hpending, hdisabled, hcancels⟩ := h
  cases a with
  | ask r =>
    cases r <;> simp [perform, setTarget, serve, Shared.serve, Shared.setTarget, Shared.accepts,
      Shared.setDisabled, Shared.cancel, Shared.facade, *]
  | _ => simp [perform, target?, paths, path?, Shared.wanted, Shared.facade, *]

theorem perform_cancel {a : Atomic} (h : a.blocksCancel = false) :
    ((c.serve .cancel).perform a).2 = (c.perform a).2 ∧
      ((c.serve .cancel).perform a).1 = (c.perform a).1.serve .cancel := by
  cases a with
  | ask r =>
    cases r <;> simp_all [Atomic.blocksCancel, perform, serve, Shared.serve, Shared.cancel,
      Shared.setDisabled]
  | getPaths | getPath id => exact ⟨rfl, rfl⟩
  | getTarget | takeUp => cases h

theorem perform_enable {a : Atomic} (h : a.blocksEnable (c.perform a).2 = false) :
    ((c.serve .enable).perform a).2 = (c.perform a).2 ∧
      ((c.serve .enable).perform a).1 = (c.perform a).1.serve .enable := by
  cases a with
  | ask r =>
    cases r with
    | setTarget t =>
      -- where the flag is up the target was refused, unless its path is not known either
      cases hd : c.shared.disabled <;> cases hk : c.shared.registry.contains t.id <;>
        simp_all [Atomic.blocksEnable, perform, setTarget, serve, Shared.serve, Shared.setTarget,
          Shared.accepts]
    | setDisabled disabled =>
      cases disabled <;> simp_all [Atomic.blocksEnable, perform, serve, Shared.serve,
        Shared.setDisabled]
    | _ => exact ⟨rfl, rfl⟩
  | _ => exact ⟨rfl, rfl⟩

/-- A cancel may wait. -/
theorem Runs.delay_cancel (he : e.atomic = .ask .cancel)
    (hb : ∀ x ∈ deeds, x.atomic.blocksCancel = false) (h : c.Runs (e :: deeds ++ later) d) :
    c.Runs (deeds ++ e :: later) d := by
  induction deeds generalizing c with
  | nil => exact h
  | cons x rest ih =>
    obtain ⟨hx, hrest⟩ := List.forall_mem_cons.1 hb
    obtain ⟨hcancel, hreply, hruns⟩ := h
    rw [he] at hcancel hreply hruns
    obtain ⟨hsame, hswap⟩ := perform_cancel (c := c) hx
    refine ⟨hsame.symm.trans hreply, ih hrest ?_⟩
    rw [List.cons_append, Runs, he]
    refine ⟨hcancel, ?_⟩
    change ((c.perform x.atomic).1.serve .cancel).Runs (rest ++ later) d
    rw [← hswap]
    exact hruns

/-- Enabling may come early. -/
theorem Runs.advance_enable (he : e.atomic = .ask .enable)
    (hb : ∀ x ∈ deeds, x.atomic.blocksEnable x.reply = false)
    (h : c.Runs (deeds ++ e :: later) d) : c.Runs (e :: deeds ++ later) d := by
  induction deeds generalizing c with
  | nil => exact h
  | cons x rest ih =>
    obtain ⟨hx, hrest⟩ := List.forall_mem_cons.1 hb
    obtain ⟨hreply, hruns⟩ := h
    obtain ⟨henable, hruns⟩ := ih hrest hruns
    rw [he] at henable hruns
    rw [← hreply] at hx
    obtain ⟨hsame, hswap⟩ := perform_enable hx
    rw [List.cons_append, Runs, he]
    refine ⟨henable, hsame.trans hreply, ?_⟩
    change ((c.serve .enable).perform x.atomic).1.Runs (rest ++ later) d
    rw [hswap]
    exact hruns

end Controller

end SkidSteer
