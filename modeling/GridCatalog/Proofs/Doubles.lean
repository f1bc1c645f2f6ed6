import Mathlib.Algebra.Group.Nat.Defs
import GridCatalog.Json.Number

/-! Finite doubles.

    Reading a number multiplies or divides doubles by powers of ten. A magnitude below a power of two (`Below`) stays
    below it when it is divided by at least ten, so no division leaves the finite doubles; a product is checked. -/

namespace GridCatalog.Decimal
open Float.Model UnpackedFloat

/-- The value is finite and its magnitude is below `2 ^ t`. -/
def Below (t : Int) : UnpackedFloat → Prop
  | .zero _ => True
  | .finite _ m e _ => totalExponent m e ≤ t
  | _ => False

instance (t : Int) (u : UnpackedFloat) : Decidable (Below t u) :=
  match u with
  | .zero _ => .isTrue trivial
  | .finite _ m e _ => inferInstanceAs (Decidable (totalExponent m e ≤ t))
  | .infinity _ | .notANumber => .isFalse id

variable {s t : Int} {u v : UnpackedFloat}

theorem Below.isFinite (h : Below t u) : u.isFinite = true := by
  cases u <;> first | rfl | cases h

theorem Below.mono (h : Below s u) (hst : s ≤ t) : Below t u := by
  cases u with
  | finite => exact Int.le_trans h hst
  | zero => trivial
  | _ => cases h

theorem totalExponent_le {m : Nat} {e : Int} (he : e < t) (h : m < 2 ^ (t - e).toNat) : totalExponent m e ≤ t := by
  unfold totalExponent
  by_cases hm : m = 0
  · subst hm
    rw [Nat.log2_zero]
    omega
  · have := (Nat.log2_lt hm).mpr h
    omega

/-! ### Rounding -/

theorem mantissa_shiftRight (x : ExtendedMantissa) (k : Nat) : (x >>> k).mantissa = x.mantissa / 2 ^ k := by
  induction k with
  | zero => exact (Nat.div_one _).symm
  | succ k ih =>
    show (x >>> k).mantissa / 2 = x.mantissa / 2 ^ (k + 1)
    rw [ih, Nat.div_div_eq_div_mul, Nat.pow_succ]

theorem roundedMantissa_le (x : ExtendedMantissa) : x.roundedMantissa ≤ x.mantissa + 1 := by
  obtain ⟨m, round, sticky⟩ := x
  cases round <;> cases sticky <;>
    simp only [ExtendedMantissa.roundedMantissa, ExtendedMantissa.accuracy, Accuracy.roundToNearestEven] <;> omega

theorem mantissa_shiftToExponent (m : Nat) (e : Int) (a : Accuracy) :
    (shiftToExponent m e a t).1.mantissa = m / 2 ^ (t - e).toNat := by
  rw [shiftToExponent, mantissa_shiftRight]
  rcases a with - | o
  · rfl
  · cases o <;> rfl

/-- Dropping bits and rounding up carry over at most one power of two. -/
theorem totalExponent_shift {m r k : Nat} {e : Int} (hr : r ≤ m / 2 ^ k + 1) :
    totalExponent r (e + k) ≤ max (totalExponent m e + 1) (e + k + 1) := by
  have hm : m < 2 ^ (m.log2 + 1) := Nat.lt_log2_self
  by_cases hk : k ≤ m.log2
  · refine Int.le_trans (totalExponent_le (t := totalExponent m e + 1) ?_ ?_) (Int.le_max_left ..)
    · unfold totalExponent
      omega
    · have hdiv : m / 2 ^ k < 2 ^ (m.log2 + 1 - k) := by
        rw [Nat.div_lt_iff_lt_mul (Nat.two_pow_pos k), ← Nat.pow_add, Nat.sub_add_cancel (by omega)]
        exact hm
      have hexp : (totalExponent m e + 1 - (e + k)).toNat = m.log2 + 1 - k + 1 := by
        unfold totalExponent
        omega
      have := Nat.two_pow_pos (m.log2 + 1 - k)
      rw [hexp, Nat.pow_succ]
      omega
  -- All bits are dropped, so the result is at most one.
  · have hdiv : m / 2 ^ k = 0 := Nat.div_eq_of_lt (Nat.lt_of_lt_of_le hm (Nat.pow_le_pow_right (by decide) (by omega)))
    refine Int.le_trans (totalExponent_le (t := e + k + 1) (by omega) ?_) (Int.le_max_right ..)
    rw [show (e + k + 1 - (e + k)).toNat = 1 by omega]
    omega

theorem totalExponent_shift_exact {m k : Nat} {e : Int} (h : m / 2 ^ k ≠ 0) :
    totalExponent (m / 2 ^ k) (e + k) ≤ totalExponent m e := by
  have hle : 2 ^ (m / 2 ^ k).log2 ≤ m / 2 ^ k := Nat.log2_self_le h
  have hm : m ≠ 0 := fun hm => h (by rw [hm, Nat.zero_div])
  have : (m / 2 ^ k).log2 + k ≤ m.log2 := by
    rw [Nat.le_log2 hm, Nat.pow_add]
    exact (Nat.le_div_iff_mul_le (Nat.two_pow_pos k)).mp hle
  unfold totalExponent
  omega

theorem targetExponent_eq (e : Int) : Format.binary64.targetExponent e = max (e - 53) (-1074) := rfl

/-- Rounding carries over at most one power of two, and the least double is below `2 ^ -1073`. -/
theorem below_roundWithAccuracy (sign : Sign) (m : Nat) (e : Int) (a : Accuracy) :
    Below (max (totalExponent m e + 1) (-1073)) (roundWithAccuracy Format.binary64 sign m e a) := by
  unfold roundWithAccuracy
  dsimp only
  by_cases hne : (shiftToTargetExponent Format.binary64 (shiftToTargetExponent Format.binary64 m e a).1.roundedMantissa
    (shiftToTargetExponent Format.binary64 m e a).2 .exact).1.mantissa = 0
  · rw [dif_pos hne]
    trivial
  · rw [dif_neg hne]
    change totalExponent _ _ ≤ _
    simp only [shiftToTargetExponent, mantissa_shiftToExponent] at hne ⊢
    refine Int.le_trans (totalExponent_shift_exact hne) (Int.le_trans (totalExponent_shift (m := m) ?_) ?_)
    · rw [← mantissa_shiftToExponent m e a]
      exact roundedMantissa_le _
    · rw [targetExponent_eq]
      unfold totalExponent
      omega

/-! ### Packing -/

/-- The exponent is not too large for a double. -/
def Fits : UnpackedFloat → Prop
  | .finite _ _ e _ => e ≤ 971
  | _ => True

/-- A finite double is below the power of two that its exponent gives. -/
theorem below_unpack {b : BitVec 64} (he : @unpackExponent Format.binary64 b ≠ -1#_) :
    Below ((@unpackExponent Format.binary64 b).toNat - 1022) (UnpackedFloat.unpack Format.binary64 b) ∧
      Fits (UnpackedFloat.unpack Format.binary64 b) := by
  unfold UnpackedFloat.unpack
  generalize @unpackExponent Format.binary64 b = e at he ⊢
  dsimp only
  rw [if_neg he]
  by_cases hzero : e = 0#_
  · rw [if_pos hzero]
    by_cases hm : @unpackMantissa Format.binary64 b = 0#_
    · rw [dif_pos hm]
      exact ⟨trivial, trivial⟩
    · rw [dif_neg hm, hzero]
      exact ⟨totalExponent_le (by decide) (BitVec.isLt _), by show (0 : Int) - 1075 + 1 ≤ 971; decide⟩
  · rw [if_neg hzero]
    have hlt : e.toNat < 2048 := e.isLt
    have hne : e.toNat ≠ 2047 := fun h => he (BitVec.eq_of_toNat_eq h)
    refine ⟨?_, by show (e.toNat : Int) - 1075 ≤ 971; omega⟩
    show totalExponent _ (e.toNat - 1075) ≤ _
    refine totalExponent_le (by omega) ?_
    rw [show ((e.toNat : Int) - 1022 - (e.toNat - 1075)).toNat = 53 by omega]
    exact (1#1 ++ @unpackMantissa Format.binary64 b).isLt

theorem fits_unpack (b : BitVec 64) : Fits (UnpackedFloat.unpack Format.binary64 b) := by
  by_cases he : @unpackExponent Format.binary64 b = -1#_
  · unfold UnpackedFloat.unpack
    dsimp only
    rw [if_pos he]
    split <;> trivial
  · exact (below_unpack he).2

theorem below_unpack_packComponents {sign : Sign} {e : BitVec 11} {m : BitVec 52} (he : e ≠ -1#_) :
    Below (e.toNat - 1022) (UnpackedFloat.unpack Format.binary64 (packComponents Format.binary64 sign e m)) := by
  have exponent : unpackExponent (packComponents Format.binary64 sign e m) = e := unpackExponent_packComponents
  have below := below_unpack (b := packComponents Format.binary64 sign e m)
  rw [exponent] at below
  exact (below he).1

/-- A finite value is packed as infinity if its exponent is too large, else as a double that is not larger. -/
theorem pack_finite (sign : Sign) {m : Nat} {e : Int} (hm : 0 < m) :
    (UnpackedFloat.pack Format.binary64 (.finite sign m e hm) = packedInfinity Format.binary64 sign ∧ 971 < e) ∨
    ∃ (e' : BitVec 11) (m' : BitVec 52), e' ≠ -1#_ ∧ (e'.toNat : Int) - 1022 ≤ max (totalExponent m e) (-1022) ∧
      UnpackedFloat.pack Format.binary64 (.finite sign m e hm) = packComponents Format.binary64 sign e' m' := by
  have hbias : (e + Format.binary64.exponentBias + Format.binary64.mantissaBitsWithoutImplicit).toNat =
      (e + 1075).toNat := by
    show (e + 1023 + 52).toNat = (e + 1075).toNat
    omega
  have hbits : Format.binary64.mantissaBits = 53 := rfl
  unfold UnpackedFloat.pack
  simp only [hbias, hbits]
  split
  · exact Or.inl ⟨rfl, by omega⟩
  right
  split
  · have htoNat : (BitVec.ofNat 11 (e + 1075).toNat).toNat = (e + 1075).toNat := by
      rw [BitVec.toNat_ofNat]
      exact Nat.mod_eq_of_lt (by omega)
    refine ⟨_, _, fun hall => ?_, ?_, rfl⟩
    · have := congrArg BitVec.toNat hall
      rw [htoNat, show (-1#11).toNat = 2047 from rfl] at this
      omega
    · rw [htoNat]
      unfold totalExponent
      omega
  · exact ⟨_, _, by decide, Int.le_max_right .., rfl⟩

/-- A value that fits stays where it is. -/
theorem Below.unpack_pack (h : Below t u) (fits : Fits u) :
    Below (max t (-1022)) (UnpackedFloat.unpack Format.binary64 (UnpackedFloat.pack Format.binary64 u)) := by
  cases u with
  | infinity => cases h
  | notANumber => cases h
  | zero sign => exact (below_unpack_packComponents (by decide)).mono (Int.le_max_right ..)
  | finite sign m e hm =>
    rcases pack_finite sign hm (e := e) with ⟨-, large⟩ | ⟨e', m', he, hle, packed⟩
    · exact absurd fits (by unfold Fits; omega)
    · have hexp : totalExponent m e ≤ t := h
      rw [packed]
      exact (below_unpack_packComponents he).mono (by omega)

theorem isFinite_or_isInf (h : u.isFinite = true) :
    let v := UnpackedFloat.unpack Format.binary64 (UnpackedFloat.pack Format.binary64 u)
    v.isFinite = true ∨ v.isInf = true := by
  cases u with
  | infinity => cases h
  | notANumber => cases h
  | zero sign => exact Or.inl (below_unpack_packComponents (by decide)).isFinite
  | finite sign m e hm =>
    rcases pack_finite sign hm (e := e) with ⟨packed, -⟩ | ⟨e', m', he, -, packed⟩
    · right
      rw [packed]
      cases sign <;> rfl
    · left
      rw [packed]
      exact (below_unpack_packComponents he).isFinite

/-! ### Operations -/

/-- The value is finite and its magnitude is at least `2 ^ t / 2`. -/
def isAtLeast (t : Int) : UnpackedFloat → Bool
  | .finite _ m e _ => t ≤ totalExponent m e
  | _ => false

theorem totalExponent_divCore (m₁ : Nat) (e₁ : Int) {m₂ : Nat} (e₂ : Int) (hm₂ : 0 < m₂) :
    let q := divCore Format.binary64 m₁ e₁ m₂ e₂
    totalExponent q.1 q.2.1 ≤ max (totalExponent m₁ e₁ - totalExponent m₂ e₂ + 1) (-1073) := by
  unfold divCore
  rw [targetExponent_eq]
  dsimp only
  generalize htarget : min (e₁ - e₂) (max (totalExponent m₁ e₁ - totalExponent m₂ e₂ - 53) (-1074)) = target
  refine totalExponent_le (by omega) ?_
  rw [Nat.div_lt_iff_lt_mul hm₂, Nat.shiftLeft_eq]
  have h₁ : m₁ < 2 ^ (m₁.log2 + 1) := Nat.lt_log2_self
  have h₂ : 2 ^ m₂.log2 ≤ m₂ := Nat.log2_self_le (Nat.ne_of_gt hm₂)
  calc m₁ * 2 ^ (e₁ - e₂ - target).toNat
      < 2 ^ (m₁.log2 + 1) * 2 ^ (e₁ - e₂ - target).toNat := Nat.mul_lt_mul_of_pos_right h₁ (Nat.two_pow_pos _)
    _ ≤ 2 ^ (max (totalExponent m₁ e₁ - totalExponent m₂ e₂ + 1) (-1073) - target).toNat * 2 ^ m₂.log2 := by
        rw [← Nat.pow_add, ← Nat.pow_add]
        refine Nat.pow_le_pow_right (by decide) ?_
        unfold totalExponent
        omega
    _ ≤ _ := Nat.mul_le_mul_left _ h₂

theorem Below.div (hu : Below s u) (hv : isAtLeast t v = true) :
    Below (max (s - t + 2) (-1072)) (UnpackedFloat.div Format.binary64 u v) := by
  cases v with
  | finite s₂ m₂ e₂ hm₂ =>
    have hv : t ≤ totalExponent m₂ e₂ := of_decide_eq_true hv
    cases u with
    | finite s₁ m₁ e₁ hm₁ =>
      have hu : totalExponent m₁ e₁ ≤ s := hu
      have hq := totalExponent_divCore m₁ e₁ e₂ hm₂
      dsimp only [UnpackedFloat.div]
      rcases hdiv : divCore Format.binary64 m₁ e₁ m₂ e₂ with ⟨m, e, a⟩
      rw [hdiv] at hq
      exact (below_roundWithAccuracy _ m e a).mono (by dsimp only at hq; omega)
    | zero => trivial
    | _ => cases hu
  | _ => cases hv

theorem Below.mul (hu : Below s u) (hv : Below t v) :
    Below (max (s + t + 1) (-1073)) (UnpackedFloat.mul Format.binary64 u v) := by
  cases u with
  | finite s₁ m₁ e₁ hm₁ =>
    cases v with
    | finite s₂ m₂ e₂ hm₂ =>
      have hu : totalExponent m₁ e₁ ≤ s := hu
      have hv : totalExponent m₂ e₂ ≤ t := hv
      have hlt : m₁ * m₂ < 2 ^ (m₁.log2 + 1 + (m₂.log2 + 1)) := by
        rw [Nat.pow_add]
        exact Nat.mul_lt_mul_of_lt_of_le Nat.lt_log2_self (Nat.le_of_lt Nat.lt_log2_self) (Nat.two_pow_pos _)
      have hlog := (Nat.log2_lt (Nat.ne_of_gt (Nat.mul_pos hm₁ hm₂))).mpr hlt
      refine (below_roundWithAccuracy ..).mono ?_
      unfold totalExponent at hu hv ⊢
      omega
    | zero => trivial
    | _ => cases hv
  | zero =>
    cases v with
    | finite => trivial
    | zero => trivial
    | _ => cases hv
  | _ => cases hu

/-! ### Doubles -/

theorem exists_below (h : u.isFinite = true) : ∃ t, Below t u := by
  cases u with
  | finite sign m e hm => exact ⟨totalExponent m e, Int.le_refl _⟩
  | zero => exact ⟨0, trivial⟩
  | _ => cases h

theorem Below.fits (h : Below t u) (ht : t ≤ 900) : Fits u := by
  cases u with
  | finite sign m e hm =>
    have h : totalExponent m e ≤ t := h
    unfold totalExponent at h
    show e ≤ 971
    omega
  | _ => trivial

variable {x y : Float}

theorem isFinite_neg (h : x.isFinite = true) : (-x).isFinite = true := by
  have fits : Fits x.toModel.unpack := fits_unpack _
  obtain ⟨t, ht⟩ := exists_below h
  have negated : Below t x.toModel.unpack.neg ∧ Fits x.toModel.unpack.neg := by
    cases hx : x.toModel.unpack <;> rw [hx] at ht fits <;> exact ⟨ht, fits⟩
  exact (negated.1.unpack_pack negated.2).isFinite

/-- A product of finite doubles is finite or infinite, never undefined. -/
theorem isFinite_mul (hx : x.isFinite = true) (hy : y.isFinite = true) (h : (x * y).isInf = false) :
    (x * y).isFinite = true := by
  obtain ⟨s, hs⟩ := exists_below hx
  obtain ⟨t, ht⟩ := exists_below hy
  rcases isFinite_or_isInf (hs.mul ht).isFinite with hfinite | hinf
  · exact hfinite
  · have hinf : (x * y).isInf = true := hinf
    rw [h] at hinf
    cases hinf

theorem below_mul (hx : Below s x.toModel.unpack) (hy : Below t y.toModel.unpack) (low : -1022 ≤ s + t + 1)
    (high : s + t + 1 ≤ 900) : Below (s + t + 1) (x * y).toModel.unpack := by
  have product := (hx.mul hy).mono (t := s + t + 1) (by omega)
  exact (product.unpack_pack (product.fits high)).mono (by omega)

/-! ### Reading numbers -/

open Json

theorem isAtLeast_tenTo : ∀ k < 308, isAtLeast 4 (tenTo (k + 1)).toModel.unpack = true := by decide +kernel

theorem isFinite_tenTo {k : Nat} (hk : k < 309) : (tenTo k).isFinite = true := by
  cases k with
  | zero => decide +kernel
  | succ k =>
    have := isAtLeast_tenTo k (by omega)
    show (tenTo (k + 1)).toModel.unpack.isFinite = true
    cases h : (tenTo (k + 1)).toModel.unpack <;> rw [h] at this <;> first | rfl | cases this

/-- Dividing by a power of ten that is not one does not make a magnitude larger. -/
theorem below_div_tenTo (hx : Below t x.toModel.unpack) (low : -1022 ≤ t) (high : t ≤ 900) {k : Nat} (hk : k < 308) :
    Below t (x / tenTo (k + 1)).toModel.unpack := by
  have quotient := (hx.div (isAtLeast_tenTo k hk)).mono (t := t) (by omega)
  exact (quotient.unpack_pack (quotient.fits high)).mono (by omega)

theorem below_divideByTenTo (hx : Below t x.toModel.unpack) (low : -1022 ≤ t) (high : t ≤ 900) {n : Nat} (hn : 0 < n) :
    Below t (divideByTenTo x n).toModel.unpack := by
  induction n using Nat.strongRecOn generalizing x with
  | ind n ih =>
    unfold divideByTenTo
    split
    -- Every step divides by ten or more: the power is not one even in the last step, since `n` stays positive.
    · obtain ⟨k, rfl⟩ := Nat.exists_eq_succ_of_ne_zero (Nat.ne_of_gt hn)
      exact below_div_tenTo hx low high (by omega)
    split
    · exact hx
    · exact ih (n - 308) (by omega) (below_div_tenTo hx low high (k := 307) (by decide)) (by omega)

theorem totalExponent_shiftLeft (m k : Nat) (e : Int) : totalExponent (m <<< k) (e - k) ≤ totalExponent m e := by
  refine totalExponent_le (by unfold totalExponent; omega) ?_
  have hm : m < 2 ^ (m.log2 + 1) := Nat.lt_log2_self
  rw [Nat.shiftLeft_eq, show (totalExponent m e - (e - k)).toNat = m.log2 + 1 + k by unfold totalExponent; omega,
    Nat.pow_add]
  exact Nat.mul_lt_mul_of_pos_right hm (Nat.two_pow_pos k)

theorem below_round (sign : Sign) (m : Nat) (e : Int) :
    Below (max (totalExponent m e + 1) (-1073)) (UnpackedFloat.round Format.binary64 sign m e) := by
  have hshift := totalExponent_shiftLeft m (e - Format.binary64.targetExponent (totalExponent m e)).toNat e
  exact (below_roundWithAccuracy sign _ _ .exact).mono (by omega)

theorem totalExponent_of_lt {m : Nat} (hm : m < Text.natBound64) : totalExponent m 0 ≤ 64 :=
  totalExponent_le (by decide) hm

theorem below_ofNat64 {n : Nat} (hn : n < Text.natBound64) : Below 65 (UnpackedFloat.ofNat Format.binary64 n) := by
  have := totalExponent_of_lt hn
  unfold UnpackedFloat.ofNat UnpackedFloat.ofInt UnpackedFloat.normalize
  split
  · rename_i hlt
    rw [Int.compare_eq_lt] at hlt
    omega
  · trivial
  · exact (below_round .positive n 0).mono (by omega)

theorem below_ofScientific {n : Nat} (hn : n < Text.natBound64) :
    Below 66 (UnpackedFloat.ofScientific Format.binary64 n 0) := by
  have product {u v : UnpackedFloat} (hu : Below 64 u) (hv : Below 1 v) :
      Below 66 (UnpackedFloat.mul Format.binary64 u v) := (hu.mul hv).mono (by decide)
  have hn : totalExponent (n <<< Format.binary64.mantissaBits) (-(Format.binary64.mantissaBits : Int)) ≤ 64 := by
    have := totalExponent_shiftLeft n Format.binary64.mantissaBits 0
    rw [Int.zero_sub] at this
    exact Int.le_trans this (totalExponent_of_lt hn)
  have hlow : ¬(0 : Int) < -((2 : Int) ^ Format.binary64.exponentBits + n.log2) := by
    rw [show (2 : Int) ^ Format.binary64.exponentBits = 2048 from rfl]
    omega
  unfold UnpackedFloat.ofScientific
  by_cases hzero : n = 0
  · rw [dif_pos hzero]
    trivial
  rw [dif_neg hzero, if_neg (by decide), if_neg hlow, if_pos (Int.le_refl 0)]
  refine product ?_ ?_
  · exact hn
  · show totalExponent (10 ^ 0) 0 ≤ 1
    decide

/-- A natural number of 64 bits is far from the largest double. -/
theorem below_ofNat {n : Nat} (hn : n < Text.natBound64) : Below 67 (Float.ofNat n).toModel.unpack := by
  show Below 67 (Float.ofScientific n false 0).toModel.unpack
  unfold Float.ofScientific
  split
  · have hone : Below 1 Float.exactlyRepresentablePowersOfTen[0].toModel.unpack := by decide +kernel
    have hn : Below 65 n.toUInt64.toFloat.toModel.unpack := by
      have := below_ofNat64 (n := n.toUInt64.toNat) (UInt64.toNat_lt _)
      exact (this.unpack_pack (this.fits (by decide))).mono (by decide)
    exact below_mul hn hone (by decide) (by decide)
  · have scientific := below_ofScientific hn
    exact (scientific.unpack_pack (scientific.fits (by decide))).mono (by decide)

theorem isFinite_ofNat {n : Nat} (hn : n < Text.natBound64) : (Float.ofNat n).isFinite = true :=
  (below_ofNat hn).isFinite

theorem isFinite_ofInt {n : Int} (hn : n.natAbs < Text.natBound64) : (Float.ofInt n).isFinite = true := by
  cases n with
  | ofNat n => exact isFinite_ofNat hn
  | negSucc n => exact isFinite_neg (isFinite_ofNat hn)

theorem isFinite_scaled? {value : Nat} (hvalue : value < Text.natBound64) {exponent : Int} {x : Float}
    (h : scaled? value exponent = some x) : x.isFinite = true := by
  unfold scaled? at h
  split at h
  · obtain rfl := Option.some.inj h
    exact (below_divideByTenTo (below_ofNat hvalue) (by decide) (by decide) (Nat.succ_pos _)).isFinite
  split at h
  · dsimp only at h
    split at h
    · cases h
    · obtain rfl := Option.some.inj h
      exact isFinite_mul (isFinite_ofNat hvalue) (isFinite_tenTo (by omega)) (Bool.not_eq_true _ ▸ ‹_›)
  split at h
  · obtain rfl := Option.some.inj h
    exact isFinite_ofNat hvalue
  · cases h

end GridCatalog.Decimal

namespace GridCatalog
open Decimal

/-- The number is a finite double or an integer of 64 bits. -/
def Number.Finite : Number → Prop
  | .integer n => n.natAbs < Text.natBound64
  | .double x => x.isFinite = true

namespace Json

/-- A digit that does not fit is dropped. -/
theorem Significand.value_pushed {isFull : Bool} {v : Nat} {dropped taken : Significand}
    (h : dropped.value < Text.natBound64) (hv : taken.value = v) :
    (if isFull || Text.natBound64 ≤ v then dropped else taken).value < Text.natBound64 := by
  split
  · exact h
  · rename_i fits
    simp only [Bool.or_eq_true, decide_eq_true_eq, not_or, Nat.not_le] at fits
    exact hv ▸ fits.2

theorem Significand.value_pushWhole {s : Significand} (h : s.value < Text.natBound64) (c : Char) :
    (s.pushWhole c).value < Text.natBound64 := value_pushed h rfl

theorem Significand.value_pushFraction {s : Significand} (h : s.value < Text.natBound64) (c : Char) :
    (s.pushFraction c).value < Text.natBound64 := value_pushed h rfl

theorem Significand.value_foldl {push : Significand → Char → Significand}
    (hpush : ∀ {s : Significand}, s.value < Text.natBound64 → ∀ c, (push s c).value < Text.natBound64) :
    ∀ (ds : List Char) {s : Significand}, s.value < Text.natBound64 → (ds.foldl push s).value < Text.natBound64
  | [], _, h => h
  | c :: ds, _, h => value_foldl hpush ds (hpush h c)

theorem NumberParts.isFinite_magnitude? {p : NumberParts} {x : Float} (h : p.magnitude? = some x) : x.isFinite = true := by
  refine isFinite_scaled? ?_ h
  refine Significand.value_foldl Significand.value_pushFraction _ ?_
  exact Significand.value_foldl Significand.value_pushWhole _ (by decide)

/-- Every number that is read is finite. -/
theorem NumberParts.finite_value? {p : NumberParts} {n : Number} (h : p.value? = some n) : n.Finite := by
  have double {f : Float → Float} (hf : ∀ {x : Float}, x.isFinite = true → (f x).isFinite = true) {n : Number}
      (h : p.magnitude?.map (fun x => Number.double (f x)) = some n) : n.Finite := by
    obtain ⟨x, hx, rfl⟩ := Option.map_eq_some_iff.mp h
    exact hf (isFinite_magnitude? hx)
  have hsign {x : Float} (hx : x.isFinite = true) : (if p.isNegative then -x else x).isFinite = true := by
    split
    · exact isFinite_neg hx
    · exact hx
  unfold value? at h
  dsimp only at h
  split at h
  · exact double hsign h
  split at h
  · split at h
    · rename_i hle
      obtain rfl := Option.some.inj h
      rw [Bool.and_eq_true, decide_eq_true_eq, decide_eq_true_eq] at hle
      show (-((_ : Nat) : Int)).natAbs < Text.natBound64
      rw [Int.natAbs_neg, Int.natAbs_natCast]
      exact Nat.lt_of_le_of_lt hle.2 (by decide)
    · exact double isFinite_neg h
  split at h
  · obtain rfl := Option.some.inj h
    assumption
  · exact double id h

end Json

end GridCatalog
