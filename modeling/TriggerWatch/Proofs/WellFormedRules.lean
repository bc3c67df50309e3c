import TriggerWatch.Proofs.Acceptance
import TriggerWatch.Proofs.Magnitudes

/-!
# Which submissions spell out a rule

The terms of a rule are checked one after the other, and the first flaw is reported. What the checks
demand is said here in one list, of texts as to their characters and of numbers as to their exact
values, so that an infinity or an undefined number meets no demand on a value.

## Main definitions

- `Magnitude.value?` — the exact value of a floating-point number
- `Demand` — what is asked of the terms of a rule
- `Submission.demands` — the demands in the order of the checks
- `Submission.spelled` — the rule that the terms spell out
- `IsFirstMissed` — a demand that is missed after others that are met

## Main statements

- `Magnitude.isShare_iff` — the shares are the numbers with a value from 0 to 1
- `Checks.refuse`, `Checks.bind` — checks in sequence
- `Submission.rule_exact` — a rule is found exactly where all demands are met
-/

namespace TriggerWatch

/-! ### Exact values -/

namespace Magnitude

open Float.Model Float.Model.UnpackedFloat

/-- The exact value of a number. Infinities have none, and what is no number has none. -/
def value? (x : Float) : Option ℚ :=
  match x.toModel.unpack with
  | .zero _ => some 0
  | .finite .positive m e _ => some (m * 2 ^ e)
  | .finite .negative m e _ => some (-(m * 2 ^ e))
  | .infinity _ => none
  | .notANumber => none

variable {x : Float}

theorem isSome_value? (x : Float) : (value? x).isSome = x.isFinite := by
  rw [value?, Float.isFinite, Float.Model.isFinite]
  cases x.toModel.unpack with
  | finite s m e hm => cases s <;> rfl
  | zero | infinity | notANumber => rfl

/-- A mantissa has its top digit, unless the exponent is the least one. -/
theorem normal_of_unpack {s : Sign} {m : Nat} {e : Int} {hm : 0 < m}
    (h : x.toModel.unpack = .finite s m e hm) : m < 2 ^ 53 ∧ (2 ^ 52 ≤ m ∨ e = -1074) := by
  rw [Float.Model.unpack] at h
  generalize x.toModel.toBits.toBitVec = bits at h
  have hfraction : (@unpackMantissa Format.binary64 bits).toNat < 2 ^ 52 := BitVec.isLt _
  have htop : (1#1 ++ @unpackMantissa Format.binary64 bits).toNat =
      2 ^ 52 + (@unpackMantissa Format.binary64 bits).toNat := by
    rw [BitVec.toNat_append]
    exact (Nat.two_pow_add_eq_or_of_lt hfraction 1).symm
  rw [UnpackedFloat.unpack] at h
  simp only at h
  split at h
  · split at h <;> cases h
  · split at h
    · next hleast =>
      split at h
      · cases h
      · cases h
        refine ⟨by omega, .inr ?_⟩
        rw [hleast]
        rfl
    · cases h
      exact ⟨by omega, .inl (by omega)⟩

/-- Among mantissas with their top digit the exponent decides first. -/
theorem mul_two_zpow_le_one_iff {m : Nat} {e : Int} (hm : m < 2 ^ 53)
    (htop : 2 ^ 52 ≤ m ∨ e = -1074) :
    (m : ℚ) * 2 ^ e ≤ 1 ↔ e < -52 ∨ (e = -52 ∧ m ≤ 2 ^ 52) := by
  have hupper : (m : ℚ) ≤ 2 ^ 53 := by exact_mod_cast hm.le
  rcases lt_trichotomy e (-52) with hlow | rfl | hhigh
  · have hpow : (2 : ℚ) ^ e ≤ 2 ^ (-53 : ℤ) := zpow_le_zpow_right₀ (by norm_num) (by omega)
    have hle : (m : ℚ) * 2 ^ e ≤ 1 := calc
      (m : ℚ) * 2 ^ e ≤ 2 ^ 53 * 2 ^ (-53 : ℤ) :=
        mul_le_mul hupper hpow (by positivity) (by positivity)
      _ = 1 := by norm_num
    exact iff_of_true hle (.inl hlow)
  · have hscale : (m : ℚ) * 2 ^ (-52 : ℤ) ≤ 1 ↔ (m : ℚ) ≤ 2 ^ 52 := by
      rw [zpow_neg, ← div_eq_mul_inv, div_le_one (by positivity)]
      norm_num
    rw [hscale]
    norm_cast
    simp
  · have hlower : (2 ^ 52 : ℚ) ≤ m := by exact_mod_cast htop.resolve_right (by omega)
    have hpow : (2 : ℚ) ^ (-51 : ℤ) ≤ 2 ^ e := zpow_le_zpow_right₀ (by norm_num) (by omega)
    have hgt : 1 < (m : ℚ) * 2 ^ e := calc
      (1 : ℚ) < 2 ^ 52 * 2 ^ (-51 : ℤ) := by norm_num
      _ ≤ (m : ℚ) * 2 ^ e := mul_le_mul hlower hpow (by positivity) (by positivity)
    exact iff_of_false (not_le.mpr hgt) (by omega)

theorem zero_le_iff (x : Float) :
    0.0 ≤ x ↔ (UnpackedFloat.zero .positive).le x.toModel.unpack = true := decide_eq_true_iff

theorem le_one_iff (x : Float) : x ≤ 1.0 ↔
    x.toModel.unpack.le (.finite .positive (2 ^ 52) (-52) (by decide)) = true := decide_eq_true_iff

/-- The shares are the numbers with a value from 0 to 1. -/
theorem isShare_iff (x : Float) :
    Submission.isShare x = true ↔ ∃ q, value? x = some q ∧ 0 ≤ q ∧ q ≤ 1 := by
  rw [Submission.isShare, Bool.and_eq_true, decide_eq_true_iff, decide_eq_true_iff, zero_le_iff,
    le_one_iff, value?]
  cases hx : x.toModel.unpack with
  | notANumber => simp [UnpackedFloat.le, UnpackedFloat.compare]
  | infinity s => cases s <;> simp [UnpackedFloat.le, UnpackedFloat.compare]
  | zero s => simp [UnpackedFloat.le, UnpackedFloat.compare]
  | finite s m e hm =>
    obtain ⟨hupper, htop⟩ := normal_of_unpack hx
    have hpos : (0 : ℚ) < m * 2 ^ e := mul_pos (Nat.cast_pos.mpr hm) (by positivity)
    cases s with
    | negative =>
      have hbelow : ¬ (0 : ℚ) ≤ -(m * 2 ^ e) := by linarith
      simp [UnpackedFloat.le, UnpackedFloat.compare, hbelow]
    | positive =>
      have hcompare : ((compare e (-52)).then (compare m 4503599627370496)).isLE = true ↔
          e < -52 ∨ (e = -52 ∧ m ≤ 4503599627370496) := by
        rcases lt_trichotomy e (-52) with h | rfl | h
        · simp [compare_lt_iff_lt.mpr h, h]
        · simp [Nat.isLE_compare]
        · simp [compare_gt_iff_gt.mpr h, h.not_gt, h.ne']
      simp [UnpackedFloat.le, UnpackedFloat.compare, hpos.le,
        mul_two_zpow_le_one_iff hupper htop, hcompare]

/-- A negative zero is a share as well. -/
example : value? (-0.0) = some 0 := rfl

end Magnitude

/-! ### Checks in sequence -/

/-- What is asked of the terms of a rule, and the flaw of terms that miss it. -/
structure Demand where
  holds : Prop
  flaw : Flaw

/-- A demand is missed, and those before it are met. -/
inductive IsFirstMissed : List Demand → Demand → Prop
  | here {d : Demand} {rest : List Demand} (h : ¬ d.holds) : IsFirstMissed (d :: rest) d
  | later {d missed : Demand} {rest : List Demand} (h : d.holds)
    (hrest : IsFirstMissed rest missed) : IsFirstMissed (d :: rest) missed

namespace IsFirstMissed

variable {demands more : List Demand} {d d' : Demand}

theorem not_forall (h : IsFirstMissed demands d) : ¬ ∀ d ∈ demands, d.holds := by
  induction h with
  | here h => exact fun hall => h (hall _ List.mem_cons_self)
  | later h hrest ih => exact fun hall => ih fun d hd => hall d (List.mem_cons_of_mem _ hd)

theorem unique (h : IsFirstMissed demands d) (h' : IsFirstMissed demands d') : d = d' := by
  induction h with
  | here h =>
    cases h' with
    | here => rfl
    | later hmet => exact absurd hmet h
  | later h hrest ih =>
    cases h' with
    | here hmissed => exact absurd h hmissed
    | later _ hrest' => exact ih hrest'

theorem append_right (h : IsFirstMissed demands d) : IsFirstMissed (demands ++ more) d := by
  induction h with
  | here h => exact .here h
  | later h hrest ih => exact .later h ih

theorem append_left (hall : ∀ d ∈ demands, d.holds) (h : IsFirstMissed more d) :
    IsFirstMissed (demands ++ more) d := by
  induction demands with
  | nil => exact h
  | cons first rest ih =>
    obtain ⟨hfirst, hrest⟩ := List.forall_mem_cons.mp hall
    exact .later hfirst (ih hrest)

end IsFirstMissed

/-- A computation checks demands: where all are met it has a value with a property, and otherwise
its error is the flaw of the first one missed. -/
def Checks {α : Type} (demands : List Demand) (P : α → Prop) (r : Except Flaw α) : Prop :=
  ((∀ d ∈ demands, d.holds) ∧ ∃ x, r = .ok x ∧ P x) ∨
    ∃ d, IsFirstMissed demands d ∧ r = .error d.flaw

namespace Checks

variable {α β : Type} {demands more : List Demand} {P : α → Prop} {Q : β → Prop}

theorem bind {r : Except Flaw α} {next : α → Except Flaw β} (hr : Checks demands P r)
    (hnext : ∀ x, P x → Checks more Q (next x)) : Checks (demands ++ more) Q (r >>= next) := by
  rcases hr with ⟨hall, x, rfl, hx⟩ | ⟨d, hd, rfl⟩
  · rcases hnext x hx with ⟨hmore, y, hy, hQ⟩ | ⟨d, hd, he⟩
    · exact .inl ⟨List.forall_mem_append.mpr ⟨hall, hmore⟩, y, hy, hQ⟩
    · exact .inr ⟨d, hd.append_left hall, he⟩
  · exact .inr ⟨d, hd.append_right, rfl⟩

/-- A check that refuses what misses a demand, followed by others. -/
theorem refuse {test : Bool} {holds : Prop} {flaw : Flaw} {next : Unit → Except Flaw β}
    (htest : test = true ↔ ¬ holds) (hnext : Checks more Q (next ())) :
    Checks (⟨holds, flaw⟩ :: more) Q (Submission.refuseIf test flaw >>= next) := by
  have hcheck : Checks [⟨holds, flaw⟩] (fun _ => True) (Submission.refuseIf test flaw) := by
    cases test with
    | true => exact .inr ⟨⟨holds, flaw⟩, .here (htest.mp rfl), rfl⟩
    | false =>
      have hholds : holds := not_not.mp fun h => Bool.false_ne_true (htest.mpr h)
      exact .inl ⟨List.forall_mem_singleton.mpr hholds, (), rfl, trivial⟩
  exact hcheck.bind fun _ _ => hnext

end Checks

/-! ### The terms of a rule -/

namespace Submission

variable (s : Submission)

/-- What is asked of the certainty. -/
def certaintyDemands : List Demand := [
  ⟨s.certainty.isSome, .missingCertainty⟩,
  ⟨∀ x ∈ s.certainty, ∃ q, Magnitude.value? x = some q ∧ 0 ≤ q ∧ q ≤ 1,
    .certaintyOutOfRange (s.certainty.getD 0)⟩]

/-- What is asked of the period. -/
def periodDemands : List Demand := [
  ⟨s.period.isSome, .missingPeriod⟩,
  ⟨∀ n ∈ s.period, 0 ≤ n, .negativePeriod (s.period.getD 0)⟩,
  ⟨∀ n ∈ s.period, n ≤ 0x7fffffffffffffff / 1000, .periodOutOfRange (s.period.getD 0)⟩]

/-- What is asked of the terms of a rule, in the order of the checks. -/
def demands : List Demand := [
  ⟨∃ c ∈ s.trigger.toList, Text.isBlank c = false, .blankTrigger⟩,
  ⟨'/' ∉ s.trigger.toList, .separatorInTrigger⟩,
  ⟨∃ c ∈ s.triggerAttr.toList, Text.isBlank c = false, .blankTriggerAttribute⟩,
  ⟨s.equals.isSome ∨ s.above.isSome ∨ s.below.isSome, .noCondition⟩,
  ⟨∀ x ∈ s.above, (Magnitude.value? x).isSome, .upperNotFinite⟩,
  ⟨∀ x ∈ s.below, (Magnitude.value? x).isSome, .lowerNotFinite⟩] ++
  s.certaintyDemands ++ s.periodDemands

/-- The rule that the terms spell out, with the names as they are written. -/
def spelled : Rule where
  trigger := s.trigger
  attr := s.triggerAttr
  condition := { equals := s.equals, above := s.above, below := s.below }
  certainty := s.certainty.getD 0
  period := ⟨s.period.getD 0 * 1000000000⟩

variable {s}

theorem isAllBlank_iff (text : String) :
    Text.isAllBlank text = true ↔ ¬ ∃ c ∈ text.toList, Text.isBlank c = false := by
  simp [Text.isAllBlank]

theorem hasSeparator_iff (name : String) :
    Key.hasSeparator name = true ↔ ¬ '/' ∉ name.toList := by
  simp [Key.hasSeparator, Key.separator]

theorem isEmpty_condition_iff :
    s.condition.isEmpty = true ↔ ¬ (s.equals.isSome ∨ s.above.isSome ∨ s.below.isSome) := by
  simp [condition, Condition.isEmpty, and_assoc]

theorem isUnbounded_iff (limit : Option Float) :
    isUnbounded limit = true ↔ ¬ ∀ x ∈ limit, (Magnitude.value? x).isSome := by
  cases limit <;> simp [isUnbounded, Magnitude.isSome_value?]

theorem checkedCertainty_checks :
    Checks s.certaintyDemands (· = s.certainty.getD 0) s.checkedCertainty := by
  rw [certaintyDemands, checkedCertainty]
  cases hs : s.certainty with
  | none => exact .inr ⟨_, .here (by simp), rfl⟩
  | some x =>
    by_cases hx : isShare x = true
    · have hvalue := (Magnitude.isShare_iff x).mp hx
      exact .inl ⟨by simpa using hvalue, x, if_pos hx, rfl⟩
    · have hvalue := mt (Magnitude.isShare_iff x).mpr hx
      exact .inr ⟨_, .later rfl (.here (by simpa using hvalue)), if_neg hx⟩

theorem checkedPeriod_checks :
    Checks s.periodDemands (· = ⟨s.period.getD 0 * 1000000000⟩) s.checkedPeriod := by
  rw [periodDemands, checkedPeriod]
  cases hs : s.period with
  | none => exact .inr ⟨_, .here (by simp), rfl⟩
  | some n =>
    have hlongest : Span.maxSeconds = 0x7fffffffffffffff / 1000 := rfl
    by_cases hneg : n < 0
    · exact .inr ⟨_, .later rfl (.here (by simpa using hneg)), if_pos hneg⟩
    · by_cases hmax : n ≤ Span.maxSeconds
      · have hspan : Span.ofSeconds? n = some (.ofSeconds n) := if_pos ⟨by omega, hmax⟩
        rw [hlongest] at hmax
        refine .inl ⟨?_, .ofSeconds n, ?_, rfl⟩
        · simpa using ⟨Int.not_lt.mp hneg, hmax⟩
        · simp [hneg, hspan]
      · have hspan : Span.ofSeconds? n = none := if_neg fun h => hmax h.2
        rw [hlongest] at hmax
        refine .inr ⟨_, .later rfl (.later (by simpa using hneg) (.here ?_)), ?_⟩
        · simpa using hmax
        · simp [hneg, hspan]

/-- The checks are those of the demands, in their order. -/
theorem rule_checks : Checks s.demands (· = s.spelled) s.rule := by
  have hlast : Checks (s.certaintyDemands ++ s.periodDemands) (· = s.spelled) (do
      let certainty ← s.checkedCertainty
      let period ← s.checkedPeriod
      return {
        trigger := s.trigger
        attr := s.triggerAttr
        condition := s.condition
        certainty
        period }) := by
    refine checkedCertainty_checks.bind fun certainty hcertainty => ?_
    rw [← List.append_nil s.periodDemands]
    refine checkedPeriod_checks.bind fun period hperiod => ?_
    subst hcertainty hperiod
    exact .inl ⟨List.forall_mem_nil _, _, rfl, rfl⟩
  exact .refuse (isAllBlank_iff _) <| .refuse (hasSeparator_iff _) <|
    .refuse (isAllBlank_iff _) <| .refuse isEmpty_condition_iff <|
      .refuse (isUnbounded_iff _) <| .refuse (isUnbounded_iff _) hlast

/-- A rule is found exactly where its terms meet all demands. It is then the one that they spell
out, and otherwise the flaw of the first demand missed is reported. -/
theorem rule_exact (s : Submission) :
    (∀ r, s.rule = .ok r ↔ (∀ d ∈ s.demands, d.holds) ∧ r = s.spelled) ∧
      ∀ flaw, s.rule = .error flaw ↔ ∃ d, IsFirstMissed s.demands d ∧ flaw = d.flaw := by
  rcases rule_checks (s := s) with ⟨hall, r, hr, rfl⟩ | ⟨d, hd, hr⟩
  · rw [hr]
    refine ⟨fun r => ?_, fun flaw => ?_⟩
    · rw [Except.ok.injEq, eq_comm, and_iff_right hall]
    · refine iff_of_false nofun ?_
      rintro ⟨d, hd, -⟩
      exact hd.not_forall hall
  · rw [hr]
    refine ⟨fun r => ?_, fun flaw => ⟨?_, ?_⟩⟩
    · exact iff_of_false nofun fun h => hd.not_forall h.1
    · rintro ⟨⟩
      exact ⟨d, hd, rfl⟩
    · rintro ⟨d', hd', rfl⟩
      rw [hd.unique hd']

end Submission

end TriggerWatch
