import TriggerWatch.Window
import TriggerWatch.Proofs.Instants

/-!
# What is counted in a window

The window of a rule and the period before it meet at one instant, and both are found from the
present in one step. A window without length has no period before it.

## Main definitions

- `Rule.windowStart`, `Rule.priorStart` — the begin of the window and of the period before it
- `Rule.IsCovered`, `Rule.Suffices` — what a rule asks of the readings

## Main statements

- `Window.back_back` — the two begins are one and two periods back
- `Rule.tally_eq` — the counts of a rule
- `Rule.covered_of_satisfied` and its like — what a verdict shows
- `Rule.period_ne_of_satisfied` — a rule with an empty window is never satisfied
-/

namespace TriggerWatch

namespace Instant

theorem earliest_le (t : Instant) : earliest ≤ t := by
  have := t.first_le
  rw [le_iff]
  simp only [earliest]
  omega

/-- Two moves backward by a second or more are one move by their sum. -/
theorem sub?_add {t u : Instant} {d d' : Span} (hd : 1000000000 ≤ d.nanos) (hd' : 0 ≤ d'.nanos)
    (h : t.sub? d = some u) : u.sub? d' = t.sub? ⟨d.nanos + d'.nanos⟩ := by
  rw [sub?_of_nonneg (by omega), if_neg (by omega)] at h
  have hu := not_isLeap_of_ofNanos? h
  rw [sub?_of_nonneg hd', if_neg (fun hl => hu hl.1), toNanos_of_ofNanos? h,
    sub?_of_nonneg (by simp only; omega), if_neg (by simp only; omega), Int.sub_sub]

theorem le_of_sub? {t u : Instant} {d : Span} (hd : 1000000000 ≤ d.nanos)
    (h : t.sub? d = some u) : u ≤ t := by
  rw [sub?_of_nonneg (by omega), if_neg (by omega)] at h
  have hu := toNanos_of_ofNanos? h
  have hleap := not_isLeap_of_ofNanos? h
  have ht := t.nanos_lt
  rw [le_iff]
  simp only [toNanos, isLeap] at hu hleap
  omega

/-- A move backward by a second or more leads out of the calendar only before it. -/
theorem sub?_eq_none_iff {t : Instant} {d : Span} (hd : 1000000000 ≤ d.nanos) :
    t.sub? d = none ↔ t.toNanos - d.nanos < firstSecond * 1000000000 := by
  have hl := t.le_last
  have ht := t.nanos_lt
  rw [sub?_of_nonneg (by omega), if_neg (by omega), ofNanos?_eq_none_iff]
  simp only [toNanos]
  omega

end Instant

namespace Window

theorem back_zero (t : Instant) : back t ⟨0⟩ = t := by
  rw [back, Instant.sub?_zero]
  rfl

theorem back_le {t : Instant} {period : Span}
    (h : period = ⟨0⟩ ∨ 1000000000 ≤ period.nanos) : back t period ≤ t := by
  rcases h with rfl | h
  · rw [back_zero]
    exact Instant.le_refl t
  · rw [back]
    cases hs : t.sub? period with
    | none => exact Instant.earliest_le t
    | some u => exact Instant.le_of_sub? h hs

/-- Two periods back is twice the period back, also where a begin is cut off. -/
theorem back_back {t : Instant} {period : Span}
    (h : period = ⟨0⟩ ∨ 1000000000 ≤ period.nanos) :
    back (back t period) period = back t ⟨2 * period.nanos⟩ := by
  rcases h with rfl | h
  · rw [back_zero, back_zero]
    exact (back_zero t).symm
  · cases hs : t.sub? period with
    | none =>
      -- where one period leads out of the calendar, so do two, and one more from its begin
      have hback : back t period = Instant.earliest := by rw [back, hs]; rfl
      rw [Instant.sub?_eq_none_iff h] at hs
      have hfirst : Instant.earliest.sub? period = none := by
        rw [Instant.sub?_eq_none_iff h]
        simp only [Instant.earliest, Instant.toNanos]
        omega
      have htwice : t.sub? ⟨2 * period.nanos⟩ = none := by
        rw [Instant.sub?_eq_none_iff (by simp only; omega)]
        simp only
        omega
      rw [hback, back, back, hfirst, htwice]
    | some u =>
      rw [back, back, back, hs, Option.getD_some, Instant.sub?_add h (by omega) hs, ← Int.two_mul]

end Window

/-! ### The counts of a rule -/

namespace Rule

variable (r : Rule) (now : Instant)

/-- The begin of the window, or of the calendar. -/
def windowStart : Instant := (now.sub? r.period).getD .earliest

/-- The begin of the period before the window, or of the calendar. -/
def priorStart : Instant := (now.sub? ⟨2 * r.period.nanos⟩).getD .earliest

/-- The readings of the attribute that the rule looks at. -/
def watched (readings : List Reading) : List Reading := readings.filter fun e => e.attr == r.attr

variable {r now} (h : r.period = ⟨0⟩ ∨ 1000000000 ≤ r.period.nanos)

include h

theorem ending_eq : Window.ending now r.period =
    { start := r.windowStart now, priorStart := r.priorStart now } := by
  rw [Window.ending, Window.back_back h]
  rfl

theorem isInside_iff (t : Instant) :
    (Window.ending now r.period).isInside t = true ↔ r.windowStart now ≤ t := by
  have hle : r.priorStart now ≤ r.windowStart now := by
    have := Window.back_le (t := Window.back now r.period) h
    rwa [Window.back_back h] at this
  rw [ending_eq h, Window.isInside]
  simp only [Bool.and_eq_true, Bool.not_eq_true', decide_eq_false_iff_not]
  exact ⟨fun hi => hi.2, fun hs => ⟨Instant.le_trans hle hs, hs⟩⟩

theorem isPrior_iff (t : Instant) :
    (Window.ending now r.period).isPrior t = true ↔
      r.priorStart now ≤ t ∧ t < r.windowStart now := by
  rw [ending_eq h, Window.isPrior]
  simp only [Bool.and_eq_true, Bool.not_eq_true', decide_eq_false_iff_not, decide_eq_true_eq]
  rfl

theorem tally_eq (readings : List Reading) :
    r.tally readings now = {
      tested := (r.watched readings).countP fun e => r.windowStart now ≤ e.timestamp
      satisfied := (r.watched readings).countP fun e =>
        r.windowStart now ≤ e.timestamp && r.condition.holds e.value
      covered := (r.watched readings).any fun e =>
        r.priorStart now ≤ e.timestamp && e.timestamp < r.windowStart now } := by
  have inside (t : Instant) :
      (Window.ending now r.period).isInside t = decide (r.windowStart now ≤ t) := by
    rw [Bool.eq_iff_iff, isInside_iff h, decide_eq_true_eq]
  have prior (t : Instant) : (Window.ending now r.period).isPrior t =
      (decide (r.priorStart now ≤ t) && decide (t < r.windowStart now)) := by
    rw [Bool.eq_iff_iff, isPrior_iff h, Bool.and_eq_true, decide_eq_true_eq, decide_eq_true_eq]
  simp only [tally, watched, inside, prior]

end Rule

/-- Whether a reading of the attribute lies in the period before the window. -/
def Rule.IsCovered (r : Rule) (readings : List Reading) (now : Instant) : Prop :=
  ∃ e ∈ r.watched readings, r.priorStart now ≤ e.timestamp ∧ e.timestamp < r.windowStart now

theorem Rule.covered_iff {r : Rule} {now : Instant}
    (h : r.period = ⟨0⟩ ∨ 1000000000 ≤ r.period.nanos) (readings : List Reading) :
    (r.tally readings now).covered = true ↔ r.IsCovered readings now := by
  rw [tally_eq h, IsCovered]
  simp only [List.any_eq_true, Bool.and_eq_true, decide_eq_true_eq]

/-! ### Verdicts -/

namespace Rule

variable {r : Rule} {t : Tally}

/-- Whether there is a share of readings that met the condition, and it is as large as the rule asks
for. -/
def Suffices (r : Rule) (certainty : Option Float) : Prop :=
  ∃ x, certainty = some x ∧ x ≥ r.certainty

theorem not_covered_of_pending (h : r.verdict t = .pending) : t.covered = false := by
  rw [verdict] at h
  split at h
  · next hc => simpa using hc
  · split at h
    · split at h <;> cases h
    · cases h

theorem covered_of_below {certainty : Option Float} (h : r.verdict t = .below certainty) :
    t.covered = true ∧ ¬ r.Suffices t.certainty := by
  rw [verdict] at h
  split at h
  · cases h
  · next hc =>
    refine ⟨by simpa using hc, ?_⟩
    rintro ⟨x, hx, hle⟩
    rw [hx] at h
    simp only [hle, if_true] at h
    cases h

theorem covered_of_satisfied {certainty : Float} (h : r.verdict t = .satisfied certainty) :
    t.covered = true ∧ t.certainty = some certainty ∧ certainty ≥ r.certainty := by
  rw [verdict] at h
  split at h
  · cases h
  · next hc =>
    refine ⟨by simpa using hc, ?_⟩
    split at h
    · next x hx =>
      split at h
      · next hle =>
        cases h
        exact ⟨hx, hle⟩
      · cases h
    · cases h

/-- A window without length has no period before it. -/
theorem not_isCovered_of_period_eq {now : Instant} (h : r.period = ⟨0⟩) (readings : List Reading) :
    ¬ r.IsCovered readings now := by
  rintro ⟨e, -, hprior, hstart⟩
  rw [priorStart, h] at hprior
  rw [windowStart, h] at hstart
  exact hprior hstart

/-- A rule with an empty window is never satisfied. -/
theorem period_ne_of_satisfied {readings : List Reading} {now : Instant} {certainty : Float}
    (h : r.verdict (r.tally readings now) = .satisfied certainty) : r.period ≠ ⟨0⟩ := by
  intro hp
  have hcovered := (covered_iff (.inl hp) readings).mp (covered_of_satisfied h).1
  exact not_isCovered_of_period_eq hp readings hcovered

end Rule

end TriggerWatch
