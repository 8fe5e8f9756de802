import SkidSteer.Proofs.Binary64.Signs
import SkidSteer.Proofs.Binary64.Words

namespace SkidSteer.Binary64

open Float.Model Float.Model.UnpackedFloat

/-- No number but zero: a zero of either sign, or a NaN. -/
def Vanishes : UnpackedFloat → Prop
  | .notANumber | .zero _ => True
  | _ => False

section Unpacked

variable {f g : UnpackedFloat} {spec : Format}

theorem isNaN_roundWithAccuracy (s : Sign) (m : Nat) (e : Int) (a : Accuracy) :
    (roundWithAccuracy spec s m e a).isNaN = false := by
  simp only [roundWithAccuracy]
  split
  · rfl
  · rfl

theorem isNaN_normalize (m : Int) (e : Int) (s : Sign) :
    (UnpackedFloat.normalize spec m e s).isNaN = false := by
  unfold UnpackedFloat.normalize
  split
  · exact isNaN_roundWithAccuracy _ _ _ _
  · rfl
  · exact isNaN_roundWithAccuracy _ _ _ _

/-- Packing may make a number infinite, but never a NaN. -/
theorem isNaN_pack (f : UnpackedFloat) : (Float.Model.pack f).unpack.isNaN = f.isNaN := by
  change (UnpackedFloat.unpack .binary64 (UnpackedFloat.pack .binary64 f)).isNaN = f.isNaN
  cases f with
  | notANumber => rfl
  | infinity s | zero s => cases s <;> rfl
  | finite s m e pos =>
    rw [UnpackedFloat.pack]
    simp only
    generalize (e + Format.binary64.exponentBias +
      (Format.binary64.mantissaBitsWithoutImplicit : Int)).toNat = biased
    split
    · cases s <;> rfl
    · rename_i hsize
      rw [show 2 ^ Format.binary64.exponentBits = 2048 from rfl] at hsize
      split
      · have hinf : BitVec.ofNat 11 biased ≠ -1#11 := by
          intro h
          have hfield : biased % 2 ^ 11 = 2047 := by
            rw [← BitVec.toNat_ofNat, h]
            rfl
          omega
        rw [unpack_packComponents, if_neg hinf]
        split
        · split <;> rfl
        · rfl
      · rw [unpack_packComponents, if_neg (by decide), if_pos rfl]
        split <;> rfl

theorem not_isFinite_pack (h : f.isFinite = false) :
    (Float.Model.pack f).unpack.isFinite = false := by
  cases f with
  | notANumber => rfl
  | infinity s => cases s <;> rfl
  | zero s | finite s m e pos => cases h

theorem Vanishes.pack (h : Vanishes f) : Vanishes (Float.Model.pack f).unpack := by
  cases f with
  | notANumber => trivial
  | zero s => cases s <;> trivial
  | infinity s | finite s m e pos => cases h

end Unpacked

variable {x y : Float}

theorem unpack_of_isNaN (h : x.isNaN = true) : x.toModel.unpack = .notANumber := by
  change x.toModel.unpack.isNaN = true at h
  cases hx : x.toModel.unpack with
  | notANumber => rfl
  | _ =>
    rw [hx] at h
    cases h

/-- An operation on what numbers unpack to that gives a NaN wherever it is given one. -/
structure KeepsNaN (op : UnpackedFloat → UnpackedFloat → UnpackedFloat) : Prop where
  left : ∀ g, op .notANumber g = .notANumber
  right : ∀ f, op f .notANumber = .notANumber

theorem KeepsNaN.isNaN {op : UnpackedFloat → UnpackedFloat → UnpackedFloat} (hop : KeepsNaN op)
    (h : x.isNaN = true ∨ y.isNaN = true) :
    (Float.Model.pack (op x.toModel.unpack y.toModel.unpack)).unpack.isNaN = true := by
  rw [isNaN_pack]
  rcases h with h | h
  · rw [unpack_of_isNaN h, hop.left]
    rfl
  · rw [unpack_of_isNaN h, hop.right]
    rfl

theorem keepsNaN_add (spec : Format) : KeepsNaN (UnpackedFloat.add spec) :=
  ⟨fun _ => rfl, fun f => by cases f <;> rfl⟩

theorem keepsNaN_sub (spec : Format) : KeepsNaN (UnpackedFloat.sub spec) :=
  ⟨fun _ => rfl, fun f => by cases f <;> rfl⟩

theorem keepsNaN_mul (spec : Format) : KeepsNaN (UnpackedFloat.mul spec) :=
  ⟨fun _ => rfl, fun f => by cases f <;> rfl⟩

theorem keepsNaN_div (spec : Format) : KeepsNaN (UnpackedFloat.div spec) :=
  ⟨fun _ => rfl, fun f => by cases f <;> rfl⟩

theorem isNaN_add (h : x.isNaN = true ∨ y.isNaN = true) : (x + y).isNaN = true :=
  (keepsNaN_add _).isNaN h

theorem isNaN_sub (h : x.isNaN = true ∨ y.isNaN = true) : (x - y).isNaN = true :=
  (keepsNaN_sub _).isNaN h

theorem isNaN_mul (h : x.isNaN = true ∨ y.isNaN = true) : (x * y).isNaN = true :=
  (keepsNaN_mul _).isNaN h

theorem isNaN_div (h : x.isNaN = true ∨ y.isNaN = true) : (x / y).isNaN = true :=
  (keepsNaN_div _).isNaN h

theorem isNaN_sqrt (h : x.isNaN = true) : x.sqrt.isNaN = true := by
  change (Float.Model.pack (x.toModel.unpack.sqrt .binary64)).unpack.isNaN = true
  rw [unpack_of_isNaN h]
  rfl

/-- An operation that gives nothing finite for an infinity either. -/
structure KeepsEndless (op : UnpackedFloat → UnpackedFloat → UnpackedFloat) : Prop
    extends KeepsNaN op where
  infinity_left : ∀ s g, (op (.infinity s) g).isFinite = false
  infinity_right : ∀ s f, (op f (.infinity s)).isFinite = false

theorem eq_of_not_isFinite {f : UnpackedFloat} (h : f.isFinite = false) :
    f = .notANumber ∨ ∃ s, f = .infinity s := by
  cases f with
  | notANumber => exact Or.inl rfl
  | infinity s => exact Or.inr ⟨s, rfl⟩
  | zero s | finite s m e pos => cases h

theorem KeepsEndless.isFinite {op : UnpackedFloat → UnpackedFloat → UnpackedFloat}
    (hop : KeepsEndless op) (h : x.isFinite = false ∨ y.isFinite = false) :
    (Float.Model.pack (op x.toModel.unpack y.toModel.unpack)).unpack.isFinite = false := by
  apply not_isFinite_pack
  rcases h with h | h
  · rcases eq_of_not_isFinite h with hx | ⟨s, hx⟩
    · rw [hx, hop.left]
      rfl
    · rw [hx]
      exact hop.infinity_left s _
  · rcases eq_of_not_isFinite h with hy | ⟨s, hy⟩
    · rw [hy, hop.right]
      rfl
    · rw [hy]
      exact hop.infinity_right s _

theorem keepsEndless_add (spec : Format) : KeepsEndless (UnpackedFloat.add spec) where
  toKeepsNaN := keepsNaN_add spec
  infinity_left s g := by
    cases g with
    | infinity t => cases s <;> cases t <;> rfl
    | _ => rfl
  infinity_right s f := by
    cases f with
    | infinity t => cases s <;> cases t <;> rfl
    | _ => rfl

theorem keepsEndless_sub (spec : Format) : KeepsEndless (UnpackedFloat.sub spec) where
  toKeepsNaN := keepsNaN_sub spec
  infinity_left s g := by
    cases g with
    | infinity t => cases s <;> cases t <;> rfl
    | _ => rfl
  infinity_right s f := by
    cases f with
    | infinity t => cases s <;> cases t <;> rfl
    | _ => rfl

theorem keepsEndless_mul (spec : Format) : KeepsEndless (UnpackedFloat.mul spec) where
  toKeepsNaN := keepsNaN_mul spec
  infinity_left s g := by cases g <;> rfl
  infinity_right s f := by cases f <;> rfl

theorem not_isFinite_add (h : x.isFinite = false ∨ y.isFinite = false) : (x + y).isFinite = false :=
  (keepsEndless_add _).isFinite h

theorem not_isFinite_sub (h : x.isFinite = false ∨ y.isFinite = false) : (x - y).isFinite = false :=
  (keepsEndless_sub _).isFinite h

theorem not_isFinite_mul (h : x.isFinite = false ∨ y.isFinite = false) : (x * y).isFinite = false :=
  (keepsEndless_mul _).isFinite h

theorem not_isFinite_div (h : x.isFinite = false) (y : Float) : (x / y).isFinite = false := by
  apply not_isFinite_pack
  rcases eq_of_not_isFinite h with hx | ⟨s, hx⟩
  · rw [hx]
    rfl
  · rw [hx]
    cases y.toModel.unpack <;> rfl

theorem not_isFinite_sqrt (h : x.isFinite = false) : x.sqrt.isFinite = false := by
  apply not_isFinite_pack
  rcases eq_of_not_isFinite h with hx | ⟨s, hx⟩
  · rw [hx]
    rfl
  · rw [hx]
    cases s <;> rfl

theorem not_isFinite_of_isNaN (h : x.isNaN = true) : x.isFinite = false := by
  change x.toModel.unpack.isFinite = false
  rw [unpack_of_isNaN h]
  rfl

theorem read_of_not_isFinite (h : x.isFinite = false) :
    (ofFloat x).read = .nan ∨ ∃ s, (ofFloat x).read = .infinite s := by
  have hread : x.toModel.unpack = (ofFloat x).read.unpacked := unpack_word (ofFloat x)
  change x.toModel.unpack.isFinite = false at h
  rw [hread] at h
  cases hr : (ofFloat x).read with
  | nan => exact Or.inl rfl
  | infinite s => exact Or.inr ⟨s, rfl⟩
  | finite s m e =>
    rw [hr, Reading.unpacked] at h
    split at h <;> cases h

theorem isNaN_remainder (h : x.isFinite = false) (y : Float) : (remainder x y).isNaN = true := by
  have hnan : (0.0 / 0.0 : Float).isNaN = true := by decide
  unfold remainder
  rcases read_of_not_isFinite h with hr | ⟨s, hr⟩
  · rw [hr]
    exact hnan
  · rw [hr]
    exact hnan

theorem isNaN_ceiling (h : x.isNaN = true) : (ceiling x).isNaN = true := by
  unfold ceiling
  rcases read_of_not_isFinite (not_isFinite_of_isNaN h) with hr | ⟨s, hr⟩
  · rw [hr]
    exact h
  · rw [hr]
    exact h

theorem vanishes_div (x : Float) (h : y.isFinite = false) : Vanishes (x / y).toModel.unpack := by
  apply Vanishes.pack
  rcases eq_of_not_isFinite h with hy | ⟨s, hy⟩
  · rw [hy]
    cases x.toModel.unpack <;> trivial
  · rw [hy]
    cases x.toModel.unpack <;> trivial

theorem vanishes_mul (hx : x.isFinite = true) (hy : Vanishes y.toModel.unpack) :
    Vanishes (x * y).toModel.unpack := by
  apply Vanishes.pack
  change x.toModel.unpack.isFinite = true at hx
  cases hu : x.toModel.unpack with
  | notANumber | infinity s =>
    rw [hu] at hx
    cases hx
  | zero s | finite s m e pos =>
    cases hv : y.toModel.unpack with
    | notANumber | zero t => trivial
    | infinity t | finite t n d pos' =>
      rw [hv] at hy
      cases hy

/-- A zero times an infinity is a NaN. -/
theorem isNaN_mul_of_vanishes (hx : Vanishes x.toModel.unpack) (hy : y.isFinite = false) :
    (x * y).isNaN = true := by
  change (Float.Model.pack (x.toModel.unpack.mul .binary64 y.toModel.unpack)).unpack.isNaN = true
  rw [isNaN_pack]
  rcases eq_of_not_isFinite hy with hy | ⟨s, hy⟩
  · rw [hy, (keepsNaN_mul _).right]
    rfl
  · rw [hy]
    cases hu : x.toModel.unpack with
    | notANumber | zero t => rfl
    | infinity t | finite t m e pos =>
      rw [hu] at hx
      cases hx

theorem isNaN_div_of_not_isFinite (hx : x.isFinite = false) (hy : y.isFinite = false) :
    (x / y).isNaN = true := by
  change (Float.Model.pack (x.toModel.unpack.div .binary64 y.toModel.unpack)).unpack.isNaN = true
  rw [isNaN_pack]
  rcases eq_of_not_isFinite hx with hx | ⟨s, hx⟩
  · rw [hx, (keepsNaN_div _).left]
    rfl
  · rcases eq_of_not_isFinite hy with hy | ⟨t, hy⟩
    · rw [hy, (keepsNaN_div _).right]
      rfl
    · rw [hx, hy]
      rfl

section Unpacked

variable {f g : UnpackedFloat} {spec : Format}

theorem add_isNaN (hf : f.isFinite = true) (hg : g.isNaN = false) :
    (f.add spec g).isNaN = false := by
  cases f with
  | notANumber | infinity s => cases hf
  | zero s =>
    cases g with
    | notANumber => cases hg
    | zero t => cases s <;> cases t <;> rfl
    | infinity t | finite t n d pos' => rfl
  | finite s m e pos =>
    cases g with
    | notANumber => cases hg
    | zero t | infinity t => rfl
    | finite t n d pos' => exact isNaN_normalize _ _ _

theorem sub_isNaN (hf : f.isNaN = false) (hg : g.isFinite = true) :
    (f.sub spec g).isNaN = false := by
  cases g with
  | notANumber | infinity t => cases hg
  | zero t =>
    cases f with
    | notANumber => cases hf
    | zero s => cases s <;> cases t <;> rfl
    | infinity s | finite s m e pos => rfl
  | finite t n d pos' =>
    cases f with
    | notANumber => cases hf
    | zero s | infinity s => rfl
    | finite s m e pos => exact isNaN_normalize _ _ _

theorem mul_isNaN (hf : f.isNaN = false) (hg : g.isFinite = true) (hne : ¬Vanishes g) :
    (f.mul spec g).isNaN = false := by
  cases g with
  | notANumber | zero t => exact absurd trivial hne
  | infinity t => cases hg
  | finite t n d pos' =>
    cases f with
    | notANumber => cases hf
    | zero s | infinity s => rfl
    | finite s m e pos => exact isNaN_roundWithAccuracy _ _ _ _

/-- A quotient is a number unless both its parts are infinite or it is one by zero. -/
theorem div_isNaN (hf : f.isNaN = false) (hne : ¬Vanishes g)
    (h : f.isFinite = true ∨ g.isFinite = true) : (f.div spec g).isNaN = false := by
  cases g with
  | notANumber | zero t => exact absurd trivial hne
  | infinity t =>
    cases f with
    | notANumber => cases hf
    | infinity s => rcases h with h | h <;> cases h
    | zero s | finite s m e pos => rfl
  | finite t n d pos' =>
    cases f with
    | notANumber => cases hf
    | zero s | infinity s => rfl
    | finite s m e pos => exact isNaN_roundWithAccuracy _ _ _ _

end Unpacked

theorem not_isNaN_add (hx : x.isFinite = true) (hy : y.isNaN = false) : (x + y).isNaN = false :=
  (isNaN_pack _).trans (add_isNaN hx hy)

theorem not_isNaN_sub (hx : x.isNaN = false) (hy : y.isFinite = true) : (x - y).isNaN = false :=
  (isNaN_pack _).trans (sub_isNaN hx hy)

theorem not_isNaN_mul (hx : x.isNaN = false) (hy : y.isFinite = true)
    (hne : ¬Vanishes y.toModel.unpack) : (x * y).isNaN = false :=
  (isNaN_pack _).trans (mul_isNaN hx hy hne)

theorem not_isNaN_div (hx : x.isNaN = false) (hne : ¬Vanishes y.toModel.unpack)
    (h : x.isFinite = true ∨ y.isFinite = true) : (x / y).isNaN = false :=
  (isNaN_pack _).trans (div_isNaN hx hne h)

/-- What is above or below zero does not vanish. -/
theorem not_vanishes (h : x < 0.0 ∨ 0.0 < x) : ¬Vanishes x.toModel.unpack := by
  intro hv
  rw [lt_iff, lt_iff, order, order, unpack_zero] at h
  cases hx : x.toModel.unpack with
  | notANumber | zero s =>
    rw [hx] at h
    rcases h with h | h <;> cases h
  | infinity s | finite s m e pos =>
    rw [hx] at hv
    cases hv

end SkidSteer.Binary64
