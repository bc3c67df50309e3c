import Mathlib
import TriggerWatch.Json.Literal

/-!
# How large results can be

A floating-point operation rounds an exact result and then packs it, and what is too large for the
format becomes infinite. The exponent of the result is bounded by those of the operands, so where
these are small nothing is lost. The bounds are coarse: they only have to keep a few operations in a
row away from the largest exponent.

## Main definitions

- `Magnitude.IsWithin` — zero, or a number with an exponent up to a bound
- `Magnitude.Within` — the same of a floating-point number

## Main statements

- `Magnitude.roundWithAccuracy_exponentLe` — what rounding does to an exponent
- `Magnitude.within_ofNat` — whole numbers
- `Magnitude.within_div_tenTo` — quotients by powers of ten
- `Magnitude.isFinite_mul` — a product of finite numbers that is not infinite is finite
-/

namespace TriggerWatch.Magnitude

open Float.Model Float.Model.UnpackedFloat

/-- Zero, or a number with an exponent of at most `k`. -/
def ExponentLe (k : Int) : UnpackedFloat → Prop
  | .zero _ => True
  | .finite _ _ e _ => e ≤ k
  | .infinity _ => False
  | .notANumber => False

/-- Zero, or a number with an exponent of at most `k` and a mantissa of the format. -/
def IsWithin (k : Int) : UnpackedFloat → Prop
  | .zero _ => True
  | .finite _ m e _ => m < 2 ^ 53 ∧ e ≤ k
  | .infinity _ => False
  | .notANumber => False

/-! ### Rounding -/

/-- A shift to the right divides the mantissa. -/
theorem mantissa_shiftRight (em : ExtendedMantissa) (n : Nat) :
    (em >>> n).mantissa = em.mantissa / 2 ^ n := by
  change (Nat.repeat ExtendedMantissa.shiftRightOne n em).mantissa = _
  induction n with
  | zero => simp [Nat.repeat]
  | succ n ih =>
    rw [Nat.repeat, ExtendedMantissa.shiftRightOne, ih, Nat.div_div_eq_div_mul, Nat.pow_succ]

theorem mantissa_ofMantissaAndAccuracy (m : Nat) (acc : Accuracy) :
    (ExtendedMantissa.ofMantissaAndAccuracy m acc).mantissa = m := by
  cases acc with
  | exact => rfl
  | inexact o => cases o <;> rfl

theorem roundedMantissa_le (em : ExtendedMantissa) : em.roundedMantissa ≤ em.mantissa + 1 := by
  obtain ⟨m, r, s⟩ := em
  cases r <;> cases s <;>
    simp only [ExtendedMantissa.roundedMantissa, ExtendedMantissa.accuracy,
      Accuracy.roundToNearestEven] <;> omega

/-- Rounding after a shift raises the top of a number by one place at most. -/
theorem log2_shifted_le (m n : Nat) {r : Nat} (h : r ≤ m / 2 ^ n + 1) :
    r.log2 + n ≤ max (m.log2 + 1) n := by
  by_cases hn : n ≤ m.log2 + 1
  · have hlt : m / 2 ^ n < 2 ^ (m.log2 + 1 - n) := by
      rw [Nat.div_lt_iff_lt_mul (Nat.two_pow_pos n), ← Nat.pow_add,
        Nat.sub_add_cancel hn]
      exact Nat.lt_log2_self
    have hr : r ≤ 2 ^ (m.log2 + 1 - n) := by omega
    have hlog : r.log2 ≤ m.log2 + 1 - n := by
      by_cases h0 : r = 0
      · rw [h0, Nat.log2_zero]
        exact Nat.zero_le _
      · have := Nat.log2_self_le h0
        exact (Nat.pow_le_pow_iff_right (by decide : 1 < 2)).mp (Nat.le_trans this hr)
    omega
  · have hzero : m / 2 ^ n = 0 := by
      refine Nat.div_eq_of_lt (Nat.lt_of_lt_of_le Nat.lt_log2_self ?_)
      exact Nat.pow_le_pow_right (by decide) (by omega)
    have hr : r ≤ 1 := by omega
    have hlog : r.log2 = 0 := by
      rcases Nat.le_one_iff_eq_zero_or_eq_one.mp hr with rfl | rfl <;> rfl
    omega

/-- The exponent after a shift to the place of the last digit of the format. -/
theorem shiftToTargetExponent_snd (m : Nat) (e : Int) (acc : Accuracy) :
    (shiftToTargetExponent Format.binary64 m e acc).2 =
      max e (max (totalExponent m e - 53) (-1074)) := by
  change e + ((max (totalExponent m e - 53) (-1074) - e).toNat : Int) = _
  omega

theorem shiftToTargetExponent_mantissa (m : Nat) (e : Int) (acc : Accuracy) :
    (shiftToTargetExponent Format.binary64 m e acc).1.mantissa =
      m / 2 ^ (max (totalExponent m e - 53) (-1074) - e).toNat := by
  rw [shiftToTargetExponent, shiftToExponent, mantissa_shiftRight, mantissa_ofMantissaAndAccuracy]
  rfl

/-- The exponent of a rounded number is that of the exact one, or as large as the digits before the
last place of the format require, with one more for a carry. -/
theorem roundWithAccuracy_exponentLe (s : Sign) (m : Nat) (e : Int) (acc : Accuracy) :
    ExponentLe (max e (max (totalExponent m e - 52) (-1074)))
      (roundWithAccuracy Format.binary64 s m e acc) := by
  have hrounded := roundedMantissa_le (shiftToTargetExponent Format.binary64 m e acc).1
  rw [shiftToTargetExponent_mantissa] at hrounded
  have hlog := log2_shifted_le _ _ hrounded
  have hfirst := shiftToTargetExponent_snd m e acc
  have hsecond := shiftToTargetExponent_snd
    (shiftToTargetExponent Format.binary64 m e acc).1.roundedMantissa
    (shiftToTargetExponent Format.binary64 m e acc).2 .exact
  rw [roundWithAccuracy]
  simp only
  split
  · trivial
  · change _ ≤ _
    rw [hsecond, hfirst]
    rw [totalExponent] at hlog ⊢
    rw [totalExponent]
    obtain ⟨place, hplace⟩ : ∃ p, p = max ((m.log2 : Int) + 1 + e - 53) (-1074) := ⟨_, rfl⟩
    rw [← hplace] at hlog ⊢
    by_cases hle : e ≤ place
    · rw [Int.max_eq_right hle]
      omega
    · rw [Int.max_eq_left (by omega)]
      omega

theorem log2_div_two_pow {m n : Nat} (hm : m ≠ 0) (h : n ≤ m.log2) :
    (m / 2 ^ n).log2 = m.log2 - n := by
  have hlow : 2 ^ (m.log2 - n) ≤ m / 2 ^ n := by
    rw [Nat.le_div_iff_mul_le (Nat.two_pow_pos n), ← Nat.pow_add, Nat.sub_add_cancel h]
    exact Nat.log2_self_le hm
  have hhigh : m / 2 ^ n < 2 ^ (m.log2 - n + 1) := by
    rw [Nat.div_lt_iff_lt_mul (Nat.two_pow_pos n), ← Nat.pow_add, Nat.add_right_comm,
      Nat.sub_add_cancel h]
    exact Nat.lt_log2_self
  have hpos : m / 2 ^ n ≠ 0 := Nat.ne_of_gt (Nat.lt_of_lt_of_le (Nat.two_pow_pos _) hlow)
  exact (Nat.log2_eq_iff hpos).mpr ⟨hlow, hhigh⟩

theorem le_roundedMantissa (em : ExtendedMantissa) : em.mantissa ≤ em.roundedMantissa := by
  obtain ⟨m, r, s⟩ := em
  cases r <;> cases s <;>
    simp only [ExtendedMantissa.roundedMantissa, ExtendedMantissa.accuracy,
      Accuracy.roundToNearestEven] <;> omega

/-- The shift of a number with enough digits leaves as many as the format has. -/
theorem log2_shiftToTargetExponent {m : Nat} {e : Int} (hm : 52 ≤ m.log2)
    (he : -1021 ≤ totalExponent m e) (acc : Accuracy) :
    (shiftToTargetExponent Format.binary64 m e acc).1.mantissa.log2 = 52 := by
  have hpos : m ≠ 0 := by
    rintro rfl
    rw [Nat.log2_zero] at hm
    omega
  rw [totalExponent] at he
  have hshift : (max (totalExponent m e - 53) (-1074) - e).toNat = m.log2 - 52 := by
    rw [totalExponent]
    omega
  rw [shiftToTargetExponent_mantissa, hshift, log2_div_two_pow hpos (by omega)]
  omega

/-- A number with enough digits that is not too small is rounded to one with as many digits as the
format has. -/
theorem roundWithAccuracy_normal {m : Nat} {e : Int} (hm : 52 ≤ m.log2)
    (he : -1021 ≤ totalExponent m e) (s : Sign) (acc : Accuracy) :
    ∃ m' e' hm', roundWithAccuracy Format.binary64 s m e acc = .finite s m' e' hm' ∧
      m'.log2 = 52 ∧ totalExponent m e - 53 ≤ e' := by
  have hfirst := log2_shiftToTargetExponent hm he acc
  have hexponent := shiftToTargetExponent_snd m e acc
  generalize hem : shiftToTargetExponent Format.binary64 m e acc = first at hfirst hexponent
  obtain ⟨em, e₁⟩ := first
  simp only at hfirst hexponent
  -- a carry into one more digit is undone by the second shift
  have hrounded : 52 ≤ em.roundedMantissa.log2 := by
    have hpos : em.mantissa ≠ 0 := by
      intro h0
      rw [h0] at hfirst
      cases hfirst
    have hle := Nat.le_trans (Nat.log2_self_le hpos) (le_roundedMantissa em)
    rw [hfirst] at hle
    exact (Nat.le_log2 (by omega)).mpr hle
  have hsecond := log2_shiftToTargetExponent hrounded (e := e₁)
    (by rw [totalExponent] at he hexponent ⊢; omega) .exact
  have hlast := shiftToTargetExponent_snd em.roundedMantissa e₁ .exact
  generalize hem' : shiftToTargetExponent Format.binary64 em.roundedMantissa e₁ .exact = second
    at hsecond hlast
  obtain ⟨em', e₂⟩ := second
  simp only at hsecond hlast
  have hpos : em'.mantissa ≠ 0 := by
    intro h0
    rw [h0] at hsecond
    cases hsecond
  refine ⟨em'.mantissa, e₂, Nat.pos_of_ne_zero hpos, ?_, hsecond, by omega⟩
  rw [roundWithAccuracy, hem]
  simp only [hem']
  exact dif_neg hpos

/-! ### Packing -/

theorem ofNat_ne_neg_one {n : Nat} (h : n < 2047) : BitVec.ofNat 11 n ≠ -1#11 := by
  intro hn
  have htop : (-1#11).toNat = 2047 := by decide
  have hmod := congrArg BitVec.toNat hn
  rw [BitVec.toNat_ofNat, htop] at hmod
  omega

/-- What is unpacked has the exponent that was packed, unless that marks an infinity. -/
theorem isWithin_unpack {b : BitVec Format.binary64.numBits}
    (h : unpackExponent b ≠ (-1#11 : BitVec 11)) :
    IsWithin (max ((unpackExponent b).toNat - 1075) (-1074))
      (UnpackedFloat.unpack Format.binary64 b) := by
  rw [UnpackedFloat.unpack]
  simp only
  rw [if_neg h]
  have hbias : (Format.binary64.exponentBias : Int) +
      Format.binary64.mantissaBitsWithoutImplicit = 1075 := by decide
  have hmantissa : (unpackMantissa b).toNat < 2 ^ 52 := (unpackMantissa b).isLt
  split
  · next hzero =>
    split
    · trivial
    · refine ⟨by omega, ?_⟩
      rw [hbias, hzero]
      exact Int.le_max_right _ _
  · refine ⟨(1#1 ++ unpackMantissa b).isLt, ?_⟩
    rw [hbias]
    exact Int.le_max_left _ _

theorem IsWithin.mono {j k : Int} {u : UnpackedFloat} (h : IsWithin j u) (hjk : j ≤ k) :
    IsWithin k u := by
  cases u with
  | zero s => trivial
  | finite s m e hm => exact ⟨h.1, Int.le_trans h.2 hjk⟩
  | infinity s => cases h
  | notANumber => cases h

theorem isWithin_unpack_packComponents {k : Int} {n : Nat} (hn : n < 2047)
    (hk : (n : Int) - 1075 ≤ k) (hlow : -1074 ≤ k) (s : Sign) (m : BitVec 52) :
    IsWithin k (UnpackedFloat.unpack Format.binary64
      (packComponents Format.binary64 s (BitVec.ofNat 11 n) m)) := by
  have hexponent : unpackExponent (packComponents Format.binary64 s (BitVec.ofNat 11 n) m) =
      BitVec.ofNat 11 n := unpackExponent_packComponents
  have hwithin := isWithin_unpack (hexponent.symm ▸ ofNat_ne_neg_one hn)
  have hvalue : (BitVec.ofNat 11 n).toNat = n := by
    rw [BitVec.toNat_ofNat]
    omega
  refine hwithin.mono ?_
  rw [hexponent, hvalue]
  omega

/-- Packing keeps a number if its exponent is not too large. -/
theorem isWithin_unpack_pack {k : Int} {u : UnpackedFloat} (h : ExponentLe k u) (hk : k ≤ 971)
    (hlow : -1074 ≤ k) :
    IsWithin k (UnpackedFloat.unpack Format.binary64 (UnpackedFloat.pack Format.binary64 u)) := by
  cases u with
  | notANumber => cases h
  | infinity s => cases h
  | zero s => exact isWithin_unpack_packComponents (n := 0) (by decide) (by omega) hlow s 0#52
  | finite s m e hm =>
    have he : e ≤ k := h
    have hbias : (e + (Format.binary64.exponentBias : Int) +
        (Format.binary64.mantissaBitsWithoutImplicit : Int)).toNat = (e + 1075).toNat := by
      change (e + 1023 + 52).toNat = (e + 1075).toNat
      omega
    rw [UnpackedFloat.pack]
    simp only [hbias]
    rw [if_neg (show ¬ 2 ^ 11 ≤ (e + 1075).toNat + 1 by omega)]
    split
    · exact isWithin_unpack_packComponents (by omega) (by omega) hlow s _
    · exact isWithin_unpack_packComponents (n := 0) (by decide) (by omega) hlow s _

/-- A number with as many digits as the format has is packed with its exponent. -/
theorem unpack_pack_normal (s : Sign) {m : Nat} {e : Int} (hm : 0 < m) (hlog : m.log2 = 52)
    (hlow : -1074 ≤ e) (hhigh : e ≤ 971) :
    ∃ s' m' hm', UnpackedFloat.unpack Format.binary64
      (UnpackedFloat.pack Format.binary64 (.finite s m e hm)) = .finite s' m' e hm' := by
  have hbias : (e + (Format.binary64.exponentBias : Int) +
      (Format.binary64.mantissaBitsWithoutImplicit : Int)).toNat = (e + 1075).toNat := by
    change (e + 1023 + 52).toNat = (e + 1075).toNat
    omega
  have hdigits : m.log2 + 1 = Format.binary64.mantissaBits := by
    rw [hlog]
    rfl
  have hvalue : (BitVec.ofNat 11 (e + 1075).toNat).toNat = (e + 1075).toNat := by
    rw [BitVec.toNat_ofNat]
    omega
  have hzero : BitVec.ofNat 11 (e + 1075).toNat ≠ 0#11 := by
    intro h0
    have hnat := congrArg BitVec.toNat h0
    rw [hvalue, BitVec.toNat_zero] at hnat
    omega
  rw [UnpackedFloat.pack]
  simp only [hbias]
  rw [if_neg (show ¬ 2 ^ 11 ≤ (e + 1075).toNat + 1 by omega), if_pos hdigits, UnpackedFloat.unpack]
  simp only [unpackExponent_packComponents, unpackMantissa_packComponents]
  have hexponent : ((BitVec.ofNat 11 (e + 1075).toNat).toNat : Int) -
      (Format.binary64.exponentBias + Format.binary64.mantissaBitsWithoutImplicit) = e := by
    rw [hvalue]
    change ((e + 1075).toNat : Int) - 1075 = e
    omega
  rw [if_neg (ofNat_ne_neg_one (by omega)), if_neg hzero, hexponent]
  generalize BitVec.ofNat 52 m = digits
  have hpos : 0 < (1#1 ++ digits).toNat := by
    rw [BitVec.toNat_append]
    exact Nat.lt_of_lt_of_le (by decide : 0 < (1#1).toNat <<< 52) Nat.left_le_or
  exact ⟨_, _, hpos, rfl⟩

/-- Packing makes a number that is too large infinite, and nothing else. -/
theorem isWithin_or_isInf_unpack_pack {k : Int} {u : UnpackedFloat} (h : ExponentLe k u) :
    IsWithin 971 (UnpackedFloat.unpack Format.binary64 (UnpackedFloat.pack Format.binary64 u)) ∨
      (UnpackedFloat.unpack Format.binary64
        (UnpackedFloat.pack Format.binary64 u)).isInf = true := by
  cases u with
  | notANumber => cases h
  | infinity s => cases h
  | zero s => exact .inl (isWithin_unpack_pack (u := .zero s) trivial (by decide) (by decide))
  | finite s m e hm =>
    by_cases he : e ≤ 971
    · exact .inl (isWithin_unpack_pack (u := .finite s m e hm) he (by decide) (by decide))
    · refine .inr ?_
      have hlarge : 2 ^ Format.binary64.exponentBits ≤
          (e + (Format.binary64.exponentBias : Int) +
            (Format.binary64.mantissaBitsWithoutImplicit : Int)).toNat + 1 := by
        change 2048 ≤ (e + 1023 + 52).toNat + 1
        omega
      rw [UnpackedFloat.pack]
      simp only [hlarge, if_true, packedInfinity]
      rw [UnpackedFloat.unpack]
      simp [UnpackedFloat.isInf]

/-! ### Products, quotients and whole numbers before packing -/

theorem log2_lt_of_lt {m n : Nat} (hn : 0 < n) (h : m < 2 ^ n) : m.log2 < n := by
  by_cases hm : m = 0
  · rw [hm, Nat.log2_zero]
    exact hn
  · exact (Nat.log2_lt hm).mpr h

theorem exponentLe_mono {j k : Int} {u : UnpackedFloat} (h : ExponentLe j u) (hjk : j ≤ k) :
    ExponentLe k u := by
  cases u with
  | zero s => trivial
  | finite s m e hm => exact Int.le_trans (show e ≤ j from h) hjk
  | infinity s => cases h
  | notANumber => cases h

theorem exponentLe_mul {j k : Int} {u v : UnpackedFloat} (hu : IsWithin j u) (hv : IsWithin k v) :
    ExponentLe (max (j + k + 54) (-1074)) (UnpackedFloat.mul Format.binary64 u v) := by
  cases u with
  | infinity s => cases hu
  | notANumber => cases hu
  | zero s =>
    cases v with
    | infinity s' => cases hv
    | notANumber => cases hv
    | zero s' => trivial
    | finite s' m' e' hm' => trivial
  | finite s m e hm =>
    cases v with
    | infinity s' => cases hv
    | notANumber => cases hv
    | zero s' => trivial
    | finite s' m' e' hm' =>
      obtain ⟨hm, he⟩ : m < 2 ^ 53 ∧ e ≤ j := hu
      obtain ⟨hm', he'⟩ : m' < 2 ^ 53 ∧ e' ≤ k := hv
      have hproduct : m * m' < 2 ^ 106 :=
        calc m * m' < 2 ^ 53 * 2 ^ 53 := Nat.mul_lt_mul'' hm hm'
          _ = 2 ^ 106 := by decide
      have hlog := log2_lt_of_lt (by decide) hproduct
      refine exponentLe_mono (roundWithAccuracy_exponentLe (s * s') (m * m') (e + e') .exact) ?_
      rw [totalExponent]
      omega

theorem log2_shiftLeft_div_le (m n d : Nat) : ((m <<< n) / d).log2 ≤ m.log2 + n := by
  have hquotient : (m <<< n) / d < 2 ^ (m.log2 + n + 1) :=
    calc (m <<< n) / d ≤ m * 2 ^ n := by
          rw [Nat.shiftLeft_eq]
          exact Nat.div_le_self _ _
      _ < 2 ^ (m.log2 + 1) * 2 ^ n :=
          (Nat.mul_lt_mul_right (Nat.two_pow_pos n)).mpr Nat.lt_log2_self
      _ = 2 ^ (m.log2 + n + 1) := by rw [← Nat.pow_add, Nat.add_right_comm]
  exact Nat.lt_succ_iff.mp (log2_lt_of_lt (Nat.succ_pos _) hquotient)

/-- The divisor is at least one if the last place of its mantissa is not below 52 places after the
point. -/
theorem exponentLe_div {k : Int} {u : UnpackedFloat} {s : Sign} {m : Nat} {e : Int} {hm : 0 < m}
    (hu : IsWithin k u) (he : -52 ≤ e) :
    ExponentLe (max (k + 53) (-1074)) (UnpackedFloat.div Format.binary64 u (.finite s m e hm)) := by
  cases u with
  | infinity s => cases hu
  | notANumber => cases hu
  | zero s => trivial
  | finite s₁ m₁ e₁ hm₁ =>
    obtain ⟨hm₁, he₁⟩ : m₁ < 2 ^ 53 ∧ e₁ ≤ k := hu
    have hlog₁ := log2_lt_of_lt (by decide) hm₁
    -- the dividend is shifted to the left by as much as its exponent is lowered
    have hround (target : Int) (htarget : target ≤ e₁ - e) (acc : Accuracy) :
        ExponentLe (max (k + 53) (-1074)) (roundWithAccuracy Format.binary64 (s₁ / s)
          ((m₁ <<< (e₁ - e - target).toNat) / m) target acc) := by
      have hlog := log2_shiftLeft_div_le m₁ (e₁ - e - target).toNat m
      refine exponentLe_mono (roundWithAccuracy_exponentLe _ _ _ _) ?_
      rw [totalExponent]
      omega
    exact hround _ (Int.min_le_left _ _) _

/-! ### Operations on floating-point numbers -/

/-- Zero, or a number with an exponent of at most `k`. -/
def Within (k : Int) (x : Float) : Prop := IsWithin k x.toModel.unpack

variable {x y : Float} {k : Int}

theorem Within.isFinite (h : Within k x) : x.isFinite = true := by
  rw [Within] at h
  rw [Float.isFinite, Float.Model.isFinite]
  cases hx : x.toModel.unpack with
  | zero s => rfl
  | finite s m e hm => rfl
  | infinity s => rw [hx] at h; cases h
  | notANumber => rw [hx] at h; cases h

theorem Within.mono {j : Int} (h : Within j x) (hjk : j ≤ k) : Within k x := IsWithin.mono h hjk

theorem within_of_isFinite (h : x.isFinite = true) : Within 971 x := by
  rw [Float.isFinite, Float.Model.isFinite, Float.Model.unpack] at h
  rw [Within, Float.Model.unpack]
  generalize x.toModel.toBits.toBitVec = bits at h ⊢
  have hexponent : @unpackExponent Format.binary64 bits ≠ (-1#11 : BitVec 11) := by
    intro htop
    rw [UnpackedFloat.unpack] at h
    simp only [htop, if_true] at h
    by_cases hm : @unpackMantissa Format.binary64 bits = 0#52
    · rw [if_pos hm] at h
      cases h
    · rw [if_neg hm] at h
      cases h
  have htop : (@unpackExponent Format.binary64 bits).toNat ≠ 2047 :=
    fun ht => hexponent (BitVec.eq_of_toNat_eq ht)
  have hlt : (@unpackExponent Format.binary64 bits).toNat < 2048 := BitVec.isLt _
  refine (isWithin_unpack hexponent).mono ?_
  omega

theorem within_pack {u : UnpackedFloat} (h : ExponentLe k u) (hk : k ≤ 971) (hlow : -1074 ≤ k) :
    Within k (Float.ofModel (Float.Model.pack u)) := isWithin_unpack_pack h hk hlow

theorem isFinite_neg (h : x.isFinite = true) : (-x).isFinite = true := by
  have hx : IsWithin 971 x.toModel.unpack := within_of_isFinite h
  have hneg : ExponentLe 971 x.toModel.unpack.neg := by
    cases hu : x.toModel.unpack with
    | zero s => trivial
    | finite s m e hm =>
      rw [hu] at hx
      exact hx.2
    | infinity s => rw [hu] at hx; cases hx
    | notANumber => rw [hu] at hx; cases hx
  exact Within.isFinite (k := 971) (isWithin_unpack_pack hneg (by decide) (by decide))

/-- A product of finite numbers is finite unless it is infinite. -/
theorem isFinite_mul (hx : x.isFinite = true) (hy : y.isFinite = true)
    (h : (x * y).isInf = false) : (x * y).isFinite = true := by
  have hmul := exponentLe_mul (within_of_isFinite hx) (within_of_isFinite hy)
  rcases isWithin_or_isInf_unpack_pack hmul with hwithin | hinf
  · exact Within.isFinite (k := 971) hwithin
  · have hinf' : (x * y).isInf = true := hinf
    rw [h] at hinf'
    cases hinf'

/-- A whole number times a power of ten is rounded from more digits than the format has. -/
theorem ofScientific_eq {n p : Nat} (hn : 0 < n) (hp : p ≤ 2048) :
    UnpackedFloat.ofScientific Format.binary64 n p = roundWithAccuracy Format.binary64 .positive
      (n <<< 53 * 10 ^ p) (-53) .exact := by
  have hhigh : ¬ (p : Int) > 2 ^ Format.binary64.exponentBits := by
    change ¬ (p : Int) > 2048
    omega
  have hlow : ¬ (p : Int) < -((2 ^ Format.binary64.exponentBits : Int) + n.log2) := by
    change ¬ (p : Int) < -(2048 + n.log2)
    omega
  rw [UnpackedFloat.ofScientific, dif_neg (by omega), if_neg hhigh, if_neg hlow,
    if_pos (Int.natCast_nonneg p)]
  rfl

theorem log2_shiftLeft_mul {n q d : Nat} (hn : 0 < n) (hq : 0 < q) (h : n * q ≤ 2 ^ d) :
    53 ≤ (n <<< 53 * q).log2 ∧ (n <<< 53 * q).log2 ≤ 53 + d := by
  have hproduct : n <<< 53 * q = 2 ^ 53 * (n * q) := by
    rw [Nat.shiftLeft_eq, Nat.mul_comm n, Nat.mul_assoc]
  have hpos : 0 < n * q := Nat.mul_pos hn hq
  have hle : 2 ^ 53 * (n * q) ≤ 2 ^ (53 + d) := by
    rw [Nat.pow_add]
    exact Nat.mul_le_mul_left _ h
  rw [hproduct]
  refine ⟨(Nat.le_log2 (by omega)).mpr (Nat.le_mul_of_pos_right _ hpos), ?_⟩
  exact Nat.lt_succ_iff.mp (log2_lt_of_lt (by omega)
    (Nat.lt_of_le_of_lt hle (Nat.pow_lt_pow_right (by decide) (Nat.lt_succ_self _))))

theorem ten_pow_le {p k : Nat} (hp : p ≤ 3 * k) : 10 ^ p ≤ 2 ^ (10 * k) :=
  calc 10 ^ p ≤ 10 ^ (3 * k) := Nat.pow_le_pow_right (by decide) hp
    _ = (10 ^ 3) ^ k := Nat.pow_mul _ _ _
    _ ≤ (2 ^ 10) ^ k := Nat.pow_le_pow_left (by decide) _
    _ = 2 ^ (10 * k) := (Nat.pow_mul _ _ _).symm

/-- Powers of ten up to the largest in the format are numbers not below one. -/
theorem exponent_tenTo (p : Nat) (hp : p ≤ 308) :
    ∃ s m e hm, (Json.tenTo p).toModel.unpack = .finite s m e hm ∧ -52 ≤ e := by
  by_cases hmiddle : 22 < p ∧ p ≤ 300
  · have htop := ten_pow_le (k := 100) hmiddle.2
    rw [← Nat.one_mul (10 ^ p)] at htop
    obtain ⟨hlow, hhigh⟩ :=
      log2_shiftLeft_mul Nat.one_pos (Nat.pow_pos (by decide : 0 < 10)) htop
    have hbound := roundWithAccuracy_exponentLe .positive (1 <<< 53 * 10 ^ p) (-53) .exact
    obtain ⟨m, e, hm, hround, hlog, he⟩ := roundWithAccuracy_normal (m := 1 <<< 53 * 10 ^ p)
      (e := -53) (by omega) (by rw [totalExponent]; omega) .positive .exact
    rw [hround] at hbound
    have hbound : e ≤ _ := hbound
    rw [totalExponent] at hbound he
    obtain ⟨s', m', hm', hunpack⟩ :=
      unpack_pack_normal .positive (e := e) hm hlog (by omega) (by omega)
    refine ⟨s', m', e, hm', ?_, by omega⟩
    have hmodel : Json.tenTo p =
        Float.ofModel (Float.Model.pack (UnpackedFloat.ofScientific Format.binary64 1 p)) :=
      dif_neg fun h => by omega
    rw [hmodel, ofScientific_eq Nat.one_pos (by omega), hround]
    exact hunpack
  · -- the others are looked up
    have hothers : ∀ q ∈ List.range 23 ++ List.range' 301 8,
        (match (Json.tenTo q).toModel.unpack with
          | .finite _ _ e _ => decide (-52 ≤ e)
          | _ => false) = true := by
      decide +kernel
    have h := hothers p (by rw [List.mem_append, List.mem_range, List.mem_range'_1]; omega)
    cases hu : (Json.tenTo p).toModel.unpack with
    | finite s m e hm =>
      rw [hu] at h
      exact ⟨s, m, e, hm, rfl, of_decide_eq_true h⟩
    | zero s => rw [hu] at h; cases h
    | infinity s => rw [hu] at h; cases h
    | notANumber => rw [hu] at h; cases h

theorem isFinite_tenTo (p : Nat) (hp : p ≤ 308) : (Json.tenTo p).isFinite = true := by
  obtain ⟨s, m, e, hm, hu, -⟩ := exponent_tenTo p hp
  rw [Float.isFinite, Float.Model.isFinite, hu]
  rfl

/-- A quotient by a power of ten gains at most as many places as a mantissa has. -/
theorem within_div_tenTo (h : Within k x) (hlow : -1127 ≤ k) (hk : k + 53 ≤ 971) (p : Nat)
    (hp : p ≤ 308) : Within (k + 53) (x / Json.tenTo p) := by
  obtain ⟨s, m, e, hm, hu, he⟩ := exponent_tenTo p hp
  have hdiv : ExponentLe (max (k + 53) (-1074))
      (UnpackedFloat.div Format.binary64 x.toModel.unpack (Json.tenTo p).toModel.unpack) := by
    rw [hu]
    exact exponentLe_div h he
  rw [Int.max_eq_left (by omega)] at hdiv
  exact isWithin_unpack_pack hdiv hk (by omega)

theorem log2_shiftLeft_le (m n : Nat) : (m <<< n).log2 ≤ m.log2 + n := by
  have h := log2_shiftLeft_div_le m n 1
  rwa [Nat.div_one] at h

/-- A whole number with no more digits than the format has is packed as it is. -/
theorem exponentLe_ofNat {n : Nat} (h : n < 2 ^ 53) :
    ExponentLe 1 (UnpackedFloat.ofNat Format.binary64 n) := by
  have hlog := log2_lt_of_lt (by decide) h
  have hround (s : Sign) (shift : Nat) : ExponentLe 1
      (roundWithAccuracy Format.binary64 s (n <<< shift) (0 - shift) .exact) := by
    have hshift := log2_shiftLeft_le n shift
    refine exponentLe_mono (roundWithAccuracy_exponentLe _ _ _ _) ?_
    rw [totalExponent]
    omega
  rw [UnpackedFloat.ofNat, UnpackedFloat.ofInt, UnpackedFloat.normalize]
  split
  · next hneg =>
    have hlt : (n : Int) < 0 := Int.compare_eq_lt.mp hneg
    omega
  · trivial
  · exact hround _ _

theorem within_ofNat_of_lt {n : Nat} (h : n < 2 ^ 53) : Within 14 (Float.ofNat n) := by
  have hmodel : Float.ofNat n = n.toUInt64.toFloat * Float.ofBits 0x3FF0000000000000 :=
    dif_pos ⟨h, Nat.zero_le _⟩
  have hone : IsWithin (-52) (Float.ofBits 0x3FF0000000000000).toModel.unpack := by
    have hbits : (Float.ofBits 0x3FF0000000000000).toModel.unpack =
        .finite .positive (2 ^ 52) (-52) (by decide) := rfl
    rw [hbits]
    exact ⟨by decide, Int.le_refl _⟩
  have hvalue : n.toUInt64.toNat = n := by
    rw [Nat.toUInt64_eq, UInt64.toNat_ofNat']
    omega
  have hn : IsWithin 1 n.toUInt64.toFloat.toModel.unpack := by
    refine within_pack ?_ (by decide) (by decide)
    rw [UnpackedFloat.ofUInt64, hvalue]
    exact exponentLe_ofNat h
  rw [hmodel]
  exact isWithin_unpack_pack (exponentLe_mono (exponentLe_mul hn hone) (by decide)) (by decide)
    (by decide)

theorem within_ofNat_of_le {n : Nat} (h : 2 ^ 53 ≤ n) (hn : n ≤ 2 ^ 64) :
    Within 14 (Float.ofNat n) := by
  have hpos : 0 < n := Nat.lt_of_lt_of_le (by decide) h
  have hmodel : Float.ofNat n =
      Float.ofModel (Float.Model.pack (UnpackedFloat.ofScientific Format.binary64 n (0 : Nat))) :=
    dif_neg fun hc => Nat.not_lt.mpr h hc.1
  have hle : n * 10 ^ 0 ≤ 2 ^ 64 := by rwa [Nat.pow_zero, Nat.mul_one]
  have hlog := (log2_shiftLeft_mul hpos (by decide) hle).2
  rw [hmodel, ofScientific_eq hpos (by decide)]
  generalize n <<< 53 * 10 ^ 0 = m at hlog
  have hround := roundWithAccuracy_exponentLe .positive m (-53) .exact
  rw [totalExponent] at hround
  exact within_pack (exponentLe_mono hround (by omega)) (by decide) (by decide)

/-- A whole number of 64 bits is far from the largest numbers. -/
theorem within_ofNat {n : Nat} (h : n ≤ 2 ^ 64) : Within 14 (Float.ofNat n) := by
  by_cases hsmall : n < 2 ^ 53
  · exact within_ofNat_of_lt hsmall
  · exact within_ofNat_of_le (Nat.not_lt.mp hsmall) h

end TriggerWatch.Magnitude
