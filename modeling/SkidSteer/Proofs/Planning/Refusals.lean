import SkidSteer.Proofs.Binary64.NotNumbers
import SkidSteer.Proofs.Planning.SampleCount

namespace SkidSteer

open Binary64

def Waypoint.isFinite (w : Waypoint Float) : Bool :=
  w.x.isFinite && w.y.isFinite && w.heading.isFinite

/-- A platform that is exact along the first axis, where all angles are zero. -/
@[reducible] def Platform.straight : Platform := ⟨fun x => x, fun y _ => y, fun x => x⟩

variable [Platform]

attribute [local instance] Platform.scalar

/-- A heading that is not finite has no angle to anything. -/
theorem Scalar.isNaN_wrapAngle {angle : Float} (h : angle.isFinite = false) :
    (wrapAngle angle).isNaN = true := by
  have hremainder : (remainder (angle + pi) (pi + pi)).isNaN = true :=
    isNaN_remainder (not_isFinite_add (Or.inl h)) _
  have hresidue : (leastResidue (angle + pi) (pi + pi)).isNaN = true := by
    unfold leastResidue
    simp only
    rw [if_neg (not_lt_of_isNaN hremainder).1]
    exact hremainder
  exact isNaN_sub (Or.inl hresidue)

namespace Spline

variable {segment : Nat} {start finish : Waypoint Float} {spline : Spline Float}

/-- The slope of a curve is a NaN, at the latest where the curve does not end. -/
def IsLost (s : Spline Float) : Prop :=
  s.a.isNaN = true ∨ s.chord.isFinite = false ∧ Vanishes s.a.toModel.unpack

theorem IsLost.isNaN_slope (h : spline.IsLost) {x : Float}
    (hx : spline.chord.isFinite = false → x.isFinite = false) : (spline.slope x).isNaN = true := by
  have hcubic : (3.0 * spline.a * x * x).isNaN = true := by
    rcases h with hnan | ⟨hchord, hzero⟩
    · exact isNaN_mul (Or.inl (isNaN_mul (Or.inl (isNaN_mul (Or.inr hnan)))))
    · have hthree : (3.0 : Float).isFinite = true := by decide
      exact isNaN_mul (Or.inl (isNaN_mul_of_vanishes (vanishes_mul hthree hzero) (hx hchord)))
  exact isNaN_add (Or.inl (isNaN_add (Or.inl hcubic)))

theorem isLost_of_slope {leaving arriving : Float} (h : leaving.isNaN = true ∨ arriving.isNaN = true)
    (chord : Float) : (ofSlopes leaving arriving chord).IsLost :=
  Or.inl (isNaN_div (Or.inl (isNaN_add h)))

theorem isLost_of_chord {chord : Float} (h : chord.isFinite = false) (leaving arriving : Float) :
    (ofSlopes leaving arriving chord).IsLost :=
  Or.inr ⟨h, vanishes_div _ (not_isFinite_mul (Or.inl h))⟩

/-- A curve from or to a waypoint that is not finite is lost: a place that is not finite is
endlessly far away, and what has no heading has no slope. -/
theorem isLost_of_fit (htan : ∀ x : Float, x.isNaN = true → (Platform.tan x).isNaN = true)
    (h : fit segment start finish = .ok spline)
    (hbad : start.isFinite = false ∨ finish.isFinite = false) : spline.IsLost := by
  have hslope {heading : Float} (h : heading.isFinite = false) (direction : Float) :
      (Platform.tan (Scalar.wrapAngle (heading - direction))).isNaN = true :=
    htan _ (Scalar.isNaN_wrapAngle (not_isFinite_sub (Or.inl h)))
  have hfar {dx dy : Float} (h : dx.isFinite = false ∨ dy.isFinite = false) :
      (dx * dx + dy * dy).sqrt.isFinite = false :=
    not_isFinite_sqrt (not_isFinite_add (h.imp (fun hx => not_isFinite_mul (Or.inl hx))
      fun hy => not_isFinite_mul (Or.inl hy)))
  rw [(eq_of_fit h).2]
  simp only [Waypoint.isFinite, Bool.and_eq_false_iff] at hbad
  rcases hbad with ((hx | hy) | hheading) | ((hx | hy) | hheading)
  · exact isLost_of_chord (hfar (Or.inl (not_isFinite_sub (Or.inr hx)))) _ _
  · exact isLost_of_chord (hfar (Or.inr (not_isFinite_sub (Or.inr hy)))) _ _
  · exact isLost_of_slope (Or.inl (hslope hheading _)) _
  · exact isLost_of_chord (hfar (Or.inl (not_isFinite_sub (Or.inl hx)))) _ _
  · exact isLost_of_chord (hfar (Or.inr (not_isFinite_sub (Or.inl hy)))) _ _
  · exact isLost_of_slope (Or.inr (hslope hheading _)) _

end Spline

namespace CurvatureTable

variable {spline : Spline Float}

/-- A table that has come to a NaN ends with one. -/
theorem isNaN_length_addSteps_of_distance {width distance : Float} {marks : Array (Mark Float)}
    (more step : Nat) (hd : distance.isNaN = true) (hm : (length ⟨marks⟩).isNaN = true) :
    (length ⟨addSteps spline width more step distance marks⟩).isNaN = true := by
  induction more generalizing step distance marks with
  | zero => exact hm
  | succ more ih =>
    have hnext : (distance + Scalar.sqrt (1.0 + Scalar.square (spline.slope
        ((Scalar.ofCount step + 0.5) * width))) * width).isNaN = true := isNaN_add (Or.inl hd)
    apply ih
    · exact hnext
    · rw [length_push]
      exact hnext

/-- The first step of a lost curve has no length. -/
theorem isNaN_length_addSteps_of_isLost {width distance : Float} {marks : Array (Mark Float)}
    (more step : Nat) (hs : spline.IsLost)
    (hwidth : spline.chord.isFinite = false → width.isFinite = false) :
    (length ⟨addSteps spline width (more + 1) step distance marks⟩).isNaN = true := by
  have hslope := hs.isNaN_slope fun h =>
    not_isFinite_mul (x := Scalar.ofCount step + 0.5) (Or.inr (hwidth h))
  have hnext : (distance + Scalar.sqrt (1.0 + Scalar.square (spline.slope
      ((Scalar.ofCount step + 0.5) * width))) * width).isNaN = true :=
    isNaN_add (Or.inr (isNaN_mul (Or.inl (isNaN_sqrt (isNaN_add (Or.inr
      (isNaN_mul (Or.inl hslope))))))))
  rw [addSteps]
  apply isNaN_length_addSteps_of_distance
  · exact hnext
  · rw [length_push]
    exact hnext

theorem isNaN_length_addSpline {t : CurvatureTable Float}
    (h : t.length.isNaN = true ∨ spline.IsLost) : (t.addSpline spline).length.isNaN = true := by
  rcases h with ht | hs
  · apply isNaN_length_addSteps_of_distance _ _ ht
    rw [length_push]
    exact ht
  · exact isNaN_length_addSteps_of_isLost _ _ hs fun h => not_isFinite_div h _

/-- One lost curve anywhere, and a path has no length. -/
theorem isNaN_length_ofSplines {splines : List (Spline Float)}
    (h : ∃ spline ∈ splines, spline.IsLost) : (ofSplines splines).length.isNaN = true := by
  suffices ∀ t : CurvatureTable Float,
      (t.length.isNaN = true ∨ ∃ spline ∈ splines, spline.IsLost) →
        (splines.foldl addSpline t).length.isNaN = true from this empty (Or.inr h)
  clear h
  induction splines with
  | nil =>
    rintro t (ht | ⟨spline, hs, -⟩)
    · exact ht
    · cases hs
  | cons first rest ih =>
    intro t ht
    rw [List.foldl_cons]
    apply ih
    rcases ht with ht | ⟨spline, hs, hlost⟩
    · exact Or.inl (isNaN_length_addSpline (Or.inl ht))
    · rcases List.mem_cons.1 hs with rfl | hs
      · exact Or.inl (isNaN_length_addSpline (Or.inr hlost))
      · exact Or.inr ⟨spline, hs, hlost⟩

end CurvatureTable

theorem VelocityProfile.isNaN_duration {distance : Float} (h : distance.isNaN = true)
    (limits : Limits Float) : (ofDistance distance limits).duration.isNaN = true := by
  unfold ofDistance duration
  simp only
  rw [if_neg (not_lt_of_isNaN h).1]
  exact isNaN_add (Or.inr (isNaN_div (Or.inl (isNaN_sub (Or.inl h)))))

namespace Planner

variable {p : Planner Float} {waypoints : List (Waypoint Float)} {limits : Limits Float}

theorem follow_ne_ok {table : CurvatureTable Float} {profile : VelocityProfile Float}
    (h : profile.duration.isNaN = true) (t : Trajectory Float) : p.follow table profile ≠ .ok t := by
  intro hfollow
  obtain ⟨hfinite, -⟩ := follow_eq_ok_iff.1 hfollow
  have hcount : (p.sampleCount profile).isNaN = true :=
    isNaN_add (Or.inl (isNaN_ceiling (isNaN_div (Or.inl h))))
  exact Bool.false_ne_true ((not_isFinite_of_isNaN hcount).symm.trans hfinite)

theorem isFinite_of_plan (htan : ∀ x : Float, x.isNaN = true → (Platform.tan x).isNaN = true)
    (hmany : 2 ≤ waypoints.length) {plan : Plan Float} (h : p.plan waypoints limits = .ok plan) :
    ∀ w ∈ waypoints, w.isFinite = true := by
  intro w hw
  obtain ⟨-, -, rfl | ⟨splines, t, -, hsplines, hfollow, -⟩⟩ := plan_eq h
  · exact absurd h (plan_ne_empty hmany)
  · by_contra hbad
    rw [Bool.not_eq_true] at hbad
    obtain ⟨segment, start, finish, hn, hends⟩ := Waypoint.exists_neighbours hmany hw
    obtain ⟨spline, hs, hfit⟩ := Spline.fit_of_neighbours hsplines hn
    have hlost : spline.IsLost := by
      apply Spline.isLost_of_fit htan hfit
      rcases hends with rfl | rfl
      · exact Or.inl hbad
      · exact Or.inr hbad
    have hlength := CurvatureTable.isNaN_length_ofSplines ⟨spline, List.mem_of_getElem? hs, hlost⟩
    exact follow_ne_ok (VelocityProfile.isNaN_duration hlength limits) t hfollow

/-- Wherever the tangent keeps a NaN, two waypoints or more of which one is not finite are refused,
whatever the chassis, the period and the limits. A plan through two waypoints or more has at least
one sample and at most ten million, both wheels have as many, and all that is in them is finite. -/
theorem nonFinite_never_planned
    (htan : ∀ x : Float, x.isNaN = true → (Platform.tan x).isNaN = true)
    (hmany : 2 ≤ waypoints.length) :
    ((∃ w ∈ waypoints, w.isFinite = false) → ∃ e, p.plan waypoints limits = .error e) ∧
      ∀ plan, p.plan waypoints limits = .ok plan →
        ∃ length t, plan = .path length waypoints.length t ∧ 1 ≤ t.size ∧ t.size ≤ mostSamples ∧
          (∀ side, (t.side side).length = t.size) ∧
          ∀ sample ∈ t.samples, sample.all Float.isFinite = true := by
  constructor
  · rintro ⟨w, hw, hbad⟩
    cases h : p.plan waypoints limits with
    | error e => exact ⟨e, rfl⟩
    | ok plan => exact absurd ((isFinite_of_plan htan hmany h w hw).symm.trans hbad) nofun
  · intro plan h
    rcases plan_cases h with ⟨hfew, -⟩ | ⟨-, length, t, rfl, hleast, hmost⟩
    · exact absurd hfew (Nat.not_lt.2 hmany)
    · obtain ⟨-, -, hempty | ⟨splines, t', -, -, hfollow, hpath⟩⟩ := plan_eq h
      · cases hempty
      · obtain ⟨-, rfl⟩ : _ ∧ t = t' := by simpa using hpath
        obtain ⟨-, -, hall, -⟩ := follow_eq_ok_iff.1 hfollow
        exact ⟨length, t, rfl, hleast, hmost, t.length_side,
          Array.all_eq_true_iff_forall_mem.1 hall⟩

omit [Platform] in
/-- Nothing is wrong with these limits and this period, but one heading is a NaN. -/
theorem nonFinite_never_planned_straight :
    letI : Platform := .straight
    (⟨1.0, 1.0, 1.0⟩ : Limits Float).isValid = true ∧ Scalar.isPositive (0.5 : Float) = true ∧
      ∃ e, Planner.plan ⟨0.25, 0.5⟩ [⟨0.0, 0.0, 0.0⟩, ⟨1.0, 0.0, 0.0 / 0.0⟩] ⟨1.0, 1.0, 1.0⟩ =
        .error e := by
  refine ⟨by decide, by decide, ?_⟩
  exact (@nonFinite_never_planned .straight _ _ _ (fun _ h => h) (by decide)).1
    ⟨⟨1.0, 0.0, 0.0 / 0.0⟩, List.mem_cons_of_mem _ List.mem_cons_self, by decide⟩

end Planner

end SkidSteer
