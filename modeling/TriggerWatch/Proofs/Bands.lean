import TriggerWatch.Proofs.Windows

/-!
# The bands of a window on the unbounded time line

A rule sorts the readings of its attribute into three bands: those of the last period, those of the
period before it, and older ones. The two bounds are found by moving back inside the calendar, the
second one from the first, and either may be cut off at the begin of the calendar. No instant lies
before that begin, so the bands are those of the distances as plain integers.

## Main definitions

- `Rule.IsRecent`, `Rule.IsEarlier` — the two bands as inequalities between distances
- `Tally.join` — what two histories have together

## Main statements

- `Window.toNanos_back` — a move back is a subtraction that is cut off at the earliest instant
- `Window.isInside_iff`, `Window.isPrior_iff` — the bands of a reading
- `Rule.tally_append`, `Rule.tally_perm` — a tally adds up, in any order
- `Rule.tally_exact` — the tally of a history at an instant
-/

namespace TriggerWatch

theorem Instant.toNanos_earliest_le (t : Instant) : earliest.toNanos ≤ t.toNanos := by
  have hfirst := t.first_le
  simp only [earliest, toNanos]
  omega

namespace Window

variable {now t : Instant} {d : Span}

/-- An instant from which a move back by `d` is found by its distance. -/
def IsPlain (now : Instant) (d : Span) : Prop := now.isLeap → 1000000000 ≤ d.nanos

theorem sub?_eq_ofNanos? (hd : 0 ≤ d.nanos) (hnow : IsPlain now d) :
    now.sub? d = Instant.ofNanos? (now.toNanos - d.nanos) := by
  rw [Instant.sub?_of_nonneg hd, if_neg]
  rintro ⟨hleap, hshort⟩
  exact absurd (hnow hleap) (Int.not_le.mpr hshort)

theorem not_isLeap_back (hd : 0 ≤ d.nanos) (hnow : IsPlain now d) : ¬ (back now d).isLeap := by
  rw [back, sub?_eq_ofNanos? hd hnow]
  cases h : Instant.ofNanos? (now.toNanos - d.nanos) with
  | none => exact show ¬ Instant.earliest.isLeap by decide
  | some u => exact Instant.not_isLeap_of_ofNanos? h

/-- A move back is a subtraction that is cut off at the earliest instant. -/
theorem toNanos_back (hd : 0 ≤ d.nanos) (hnow : IsPlain now d) :
    (back now d).toNanos = max (now.toNanos - d.nanos) Instant.earliest.toNanos := by
  rw [back, sub?_eq_ofNanos? hd hnow]
  cases h : Instant.ofNanos? (now.toNanos - d.nanos) with
  | none =>
    -- a move back never leads out at the end of the calendar
    have hlast := now.le_last
    have hnanos := now.nanos_lt
    rw [Instant.ofNanos?_eq_none_iff] at h
    show Instant.earliest.toNanos = _
    simp only [IsPlain, Instant.isLeap] at hnow
    simp only [Instant.toNanos, Instant.earliest] at h ⊢
    omega
  | some u =>
    have hu := Instant.toNanos_of_ofNanos? h
    have hfirst := Instant.toNanos_earliest_le u
    show u.toNanos = _
    omega

/-- The second of two moves back starts where the first one was cut off; their sum is cut off
once. -/
theorem toNanos_back_back (hd : 0 ≤ d.nanos) (hnow : IsPlain now d) :
    (back (back now d) d).toNanos =
      max (now.toNanos - 2 * d.nanos) Instant.earliest.toNanos := by
  have hplain : IsPlain (back now d) d := fun hleap => absurd hleap (not_isLeap_back hd hnow)
  rw [toNanos_back hd hplain, toNanos_back hd hnow]
  omega

theorem back_le_iff (hd : 0 ≤ d.nanos) (hnow : IsPlain now d) (ht : ¬ t.isLeap) :
    back now d ≤ t ↔ now.toNanos - d.nanos ≤ t.toNanos := by
  have hfirst := Instant.toNanos_earliest_le t
  rw [Instant.le_iff_toNanos_le (not_isLeap_back hd hnow) ht, toNanos_back hd hnow]
  omega

theorem back_back_le_iff (hd : 0 ≤ d.nanos) (hnow : IsPlain now d) (ht : ¬ t.isLeap) :
    back (back now d) d ≤ t ↔ now.toNanos - 2 * d.nanos ≤ t.toNanos := by
  have hplain : IsPlain (back now d) d := fun hleap => absurd hleap (not_isLeap_back hd hnow)
  have hfirst := Instant.toNanos_earliest_le t
  rw [Instant.le_iff_toNanos_le (not_isLeap_back hd hplain) ht, toNanos_back_back hd hnow]
  omega

theorem isInside_iff (hd : 0 ≤ d.nanos) (hnow : IsPlain now d) (ht : ¬ t.isLeap) :
    (ending now d).isInside t = true ↔ now.toNanos - d.nanos ≤ t.toNanos := by
  have hstart := back_le_iff hd hnow ht
  have hprior := back_back_le_iff hd hnow ht
  rw [Instant.le_iff_not_lt] at hstart hprior
  show (!decide (t < back (back now d) d) && !decide (t < back now d)) = true ↔ _
  simp only [Bool.and_eq_true, Bool.not_eq_true', decide_eq_false_iff_not, hstart, hprior]
  omega

theorem isPrior_iff (hd : 0 ≤ d.nanos) (hnow : IsPlain now d) (ht : ¬ t.isLeap) :
    (ending now d).isPrior t = true ↔
      now.toNanos - 2 * d.nanos ≤ t.toNanos ∧ t.toNanos < now.toNanos - d.nanos := by
  have hstart := back_le_iff hd hnow ht
  have hprior := back_back_le_iff hd hnow ht
  rw [Instant.le_iff_not_lt] at hstart hprior
  show (!decide (t < back (back now d) d) && decide (t < back now d)) = true ↔ _
  rw [Bool.and_eq_true, Bool.not_eq_true', decide_eq_false_iff_not, decide_eq_true_eq, hprior]
  have hbefore : t < back now d ↔ ¬ now.toNanos - d.nanos ≤ t.toNanos := by
    rw [← hstart, Decidable.not_not]
  rw [hbefore]
  omega

end Window

/-- What two histories have together. -/
def Tally.join (s t : Tally) : Tally :=
  ⟨s.tested + t.tested, s.satisfied + t.satisfied, s.covered || t.covered⟩

namespace Rule

variable (r : Rule) (now : Instant)

/-- A reading of the rule's attribute in the last period. -/
def IsRecent (e : Reading) : Prop :=
  e.attr = r.attr ∧ now.toNanos - r.period.nanos ≤ e.timestamp.toNanos

/-- A reading of the rule's attribute in the period before the last one. -/
def IsEarlier (e : Reading) : Prop :=
  e.attr = r.attr ∧ now.toNanos - 2 * r.period.nanos ≤ e.timestamp.toNanos ∧
    e.timestamp.toNanos < now.toNanos - r.period.nanos

instance (e : Reading) : Decidable (r.IsRecent now e) := inferInstanceAs (Decidable (_ ∧ _))

instance (e : Reading) : Decidable (r.IsEarlier now e) := inferInstanceAs (Decidable (_ ∧ _))

theorem tally_append (earlier later : List Reading) :
    r.tally (earlier ++ later) now = (r.tally earlier now).join (r.tally later now) := by
  simp only [tally, Tally.join, List.filter_append, List.countP_append, List.any_append]

theorem tally_perm {readings others : List Reading} (h : readings.Perm others) :
    r.tally readings now = r.tally others now := by
  have hwatched := h.filter fun e => e.attr == r.attr
  simp only [tally, hwatched.countP_eq, hwatched.any_eq]

end Rule

/-- The tally of a history counts the bands, with the instants and the period read as unbounded
numbers. It does not depend on the order of the readings, and it adds up over parts. -/
theorem Rule.tally_exact {r : Rule} {now : Instant} {readings : List Reading}
    (hperiod : 0 ≤ r.period.nanos) (hnow : Window.IsPlain now r.period)
    (hreadings : ∀ e ∈ readings, ¬ e.timestamp.isLeap) :
    r.tally readings now = {
        tested := readings.countP fun e => r.IsRecent now e
        satisfied := readings.countP fun e => r.IsRecent now e ∧ r.condition.holds e.value = true
        covered := readings.any fun e => r.IsEarlier now e } ∧
      (∀ others, readings.Perm others → r.tally others now = r.tally readings now) ∧
      ∀ others, r.tally (readings ++ others) now =
        (r.tally readings now).join (r.tally others now) := by
  refine ⟨?_, fun others h => (r.tally_perm now h).symm, r.tally_append now readings⟩
  have inside (e : Reading) (he : e ∈ readings) :
      ((Window.ending now r.period).isInside e.timestamp && e.attr == r.attr) =
        decide (r.IsRecent now e) := by
    rw [Bool.eq_iff_iff, Bool.and_eq_true, Window.isInside_iff hperiod hnow (hreadings e he),
      beq_iff_eq, decide_eq_true_eq, IsRecent, And.comm]
  have prior (e : Reading) (he : e ∈ readings) :
      (e.attr == r.attr && (Window.ending now r.period).isPrior e.timestamp) =
        decide (r.IsEarlier now e) := by
    rw [Bool.eq_iff_iff, Bool.and_eq_true, Window.isPrior_iff hperiod hnow (hreadings e he),
      beq_iff_eq, decide_eq_true_eq, IsEarlier]
  simp only [tally, List.countP_filter, List.any_filter]
  congr 1
  · apply List.countP_congr
    intro e he
    rw [inside e he]
  · apply List.countP_congr
    intro e he
    rw [Bool.and_right_comm, inside e he, Bool.and_eq_true, decide_eq_true_eq, decide_eq_true_eq]
  · rw [Bool.eq_iff_iff, List.any_eq_true, List.any_eq_true]
    apply exists_congr
    intro e
    apply and_congr_right
    intro he
    rw [prior e he]

/-- A rule that looks for a running pump in the last minute. -/
def Rule.pumpRuns : Rule where
  trigger := "run"
  attr := "pump"
  condition := { equals := some (.text "on"), above := none, below := none }
  certainty := 0.5
  period := Span.ofSeconds 60

/-- What a pump reports at the begin of the calendar. -/
def Reading.atBegin (seconds : Nat) (state : String) : Reading where
  device := "cellar"
  attr := "pump"
  value := .text state
  timestamp := (Instant.earliest.add? (Span.ofSeconds seconds)).getD .earliest

/-- Ninety seconds into the calendar the period before the last minute is cut off. -/
theorem Rule.tally_exact_of_atBegin :
    ∃ now : Instant, now.toNanos = Instant.earliest.toNanos + 90 * 1000000000 ∧
      (Window.ending now (Span.ofSeconds 60)).priorStart = Instant.earliest ∧
      pumpRuns.tally [.atBegin 90 "on", .atBegin 0 "on", .atBegin 30 "off"] now = ⟨2, 1, true⟩ ∧
      pumpRuns.tally [.atBegin 0 "on", .atBegin 90 "on", .atBegin 30 "off"] now = ⟨2, 1, true⟩ := by
  have hplain : Window.IsPlain (Reading.atBegin 90 "on").timestamp pumpRuns.period :=
    fun hleap => absurd hleap (by decide +kernel)
  have hleap : ∀ e ∈ [Reading.atBegin 90 "on", .atBegin 0 "on", .atBegin 30 "off"],
      ¬ e.timestamp.isLeap := by
    simp only [List.forall_mem_cons]
    decide +kernel
  have hexact := tally_exact (by decide) hplain hleap
  have htally : pumpRuns.tally [.atBegin 90 "on", .atBegin 0 "on", .atBegin 30 "off"]
      (Reading.atBegin 90 "on").timestamp = ⟨2, 1, true⟩ := hexact.1.trans (by decide +kernel)
  refine ⟨_, by decide +kernel, by decide +kernel, htally, ?_⟩
  rw [← htally]
  exact hexact.2.1 _ (.swap _ _ _)

end TriggerWatch
