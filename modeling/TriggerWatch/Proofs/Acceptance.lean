import TriggerWatch.Evaluation
import TriggerWatch.Proofs.Windows

/-!
# What the checks of a submission establish

An accepted submission names its device and its trigger without the separator of keys, its rule has
a period of no less than zero seconds, and it is judged at the time of its reading.

## Main statements

- `Submission.ok_of_rule` — what holds of a checked rule
- `Evaluator.ok_of_accept` — what holds of an accepted submission
- `Evaluator.Accepts.second_le_period` — a rule that is satisfied has a period of a second or more
-/

namespace TriggerWatch

theorem eq_ok_of_toOption {ε α : Type} {r : Except ε α} {x : α} (h : r.toOption = some x) :
    r = .ok x := by
  cases r with
  | error _ => cases h
  | ok y => exact congrArg Except.ok (Option.some.inj h)

/-- A check that is passed is followed by the next one. -/
theorem Submission.refuseIf_bind_eq_ok {α : Type} {test : Bool} {flaw : Flaw}
    {next : Unit → Except Flaw α} {x : α}
    (h : (refuseIf test flaw >>= next) = .ok x) : test = false ∧ next () = .ok x := by
  cases test with
  | true => cases h
  | false => exact ⟨rfl, h⟩

theorem Span.nanos_ofSeconds? {n : Int} {d : Span} (h : ofSeconds? n = some d) :
    d.nanos = n * 1000000000 := by
  rw [ofSeconds?] at h
  split at h
  · cases h
    rfl
  · cases h

/-- What the checks establish of a rule. -/
structure Submission.Specifies (s : Submission) (r : Rule) : Prop where
  trigger_eq : r.trigger = s.trigger
  attr_eq : r.attr = s.triggerAttr
  condition_eq : r.condition = s.condition
  certainty_eq : s.certainty = some r.certainty
  isAddressable_trigger : Key.isAddressable s.trigger = true
  period_eq : ∃ n, 0 ≤ n ∧ s.period = some n ∧ r.period.nanos = n * 1000000000

theorem Submission.period_of_checkedPeriod {s : Submission} {d : Span}
    (h : s.checkedPeriod = .ok d) :
    ∃ n, 0 ≤ n ∧ s.period = some n ∧ d.nanos = n * 1000000000 := by
  rw [checkedPeriod] at h
  split at h
  · cases h
  · next n hn =>
    split at h
    · cases h
    · next hneg =>
      split at h
      · next d' hd =>
        cases h
        exact ⟨n, by omega, hn, Span.nanos_ofSeconds? hd⟩
      · cases h

theorem Submission.certainty_of_checkedCertainty {s : Submission} {x : Float}
    (h : s.checkedCertainty = .ok x) : s.certainty = some x := by
  rw [checkedCertainty] at h
  split at h
  · cases h
  · next y hy =>
    split at h
    · cases h
      exact hy
    · cases h

theorem Submission.ok_of_rule {s : Submission} {r : Rule} (h : s.rule = .ok r) :
    s.Specifies r := by
  -- only the first two of the six checks before the numbers matter later
  obtain ⟨hblank, h⟩ := refuseIf_bind_eq_ok h
  obtain ⟨hseparator, h⟩ := refuseIf_bind_eq_ok h
  obtain ⟨-, h⟩ := refuseIf_bind_eq_ok h
  obtain ⟨-, h⟩ := refuseIf_bind_eq_ok h
  obtain ⟨-, h⟩ := refuseIf_bind_eq_ok h
  obtain ⟨-, h⟩ := refuseIf_bind_eq_ok h
  cases hc : s.checkedCertainty with
  | error flaw => rw [hc] at h; cases h
  | ok certainty =>
    cases hp : s.checkedPeriod with
    | error flaw => rw [hc, hp] at h; cases h
    | ok period =>
      rw [hc, hp] at h
      cases h
      exact {
        trigger_eq := rfl
        attr_eq := rfl
        condition_eq := rfl
        certainty_eq := certainty_of_checkedCertainty hc
        isAddressable_trigger := by simp [Key.isAddressable, hblank, hseparator]
        period_eq := period_of_checkedPeriod hp }

theorem Submission.isAddressable_of_checkReading {s : Submission} (h : s.checkReading = .ok ()) :
    Key.isAddressable s.device = true := by
  obtain ⟨hblank, h⟩ := refuseIf_bind_eq_ok h
  obtain ⟨hseparator, -⟩ := refuseIf_bind_eq_ok h
  simp [Key.isAddressable, hblank, hseparator]

/-- What the checks establish of a submission. -/
structure Evaluator.Accepts {σ : Type} (e : Evaluator σ) (s : Submission) (received : Instant)
    (a : Accepted) : Prop where
  isAddressable_device : Key.isAddressable s.device = true
  rule : s.rule = .ok a.rule
  value : e.beacons.resolve s.value s.beacon = .ok a.reading.value
  time : s.time received = .ok a.now
  device_eq : a.reading.device = s.device
  attr_eq : a.reading.attr = s.attr
  timestamp_eq : a.reading.timestamp = a.now

theorem Evaluator.ok_of_accept {σ : Type} {e : Evaluator σ} {s : Submission} {received : Instant}
    {a : Accepted} (h : e.accept s received = .ok a) : e.Accepts s received a := by
  rw [accept] at h
  cases hr : s.checkReading with
  | error flaw => rw [hr] at h; cases h
  | ok _ =>
    cases hu : s.rule with
    | error flaw => rw [hr, hu] at h; cases h
    | ok rule =>
      cases hv : e.beacons.resolve s.value s.beacon with
      | error beacon => rw [hr, hu, hv] at h; cases h
      | ok value =>
        cases ht : s.time received with
        | error flaw => rw [hr, hu, hv, ht] at h; cases h
        | ok now =>
          rw [hr, hu, hv, ht] at h
          cases h
          exact {
            isAddressable_device := Submission.isAddressable_of_checkReading hr
            rule := hu
            value := hv
            time := ht
            device_eq := rfl
            attr_eq := rfl
            timestamp_eq := rfl }

namespace Evaluator.Accepts

variable {σ : Type} {e : Evaluator σ} {s : Submission} {received : Instant} {a : Accepted}

theorem trigger_eq (h : e.Accepts s received a) : a.rule.trigger = s.trigger :=
  (Submission.ok_of_rule h.rule).trigger_eq

theorem hasTrail (h : e.Accepts s received a) : hasTrail s = true := by
  rw [Evaluator.hasTrail, h.isAddressable_device,
    (Submission.ok_of_rule h.rule).isAddressable_trigger]
  rfl

theorem not_hasSeparator (h : e.Accepts s received a) :
    Key.hasSeparator a.reading.device = false := by
  have hd := h.isAddressable_device
  rw [Key.isAddressable, Bool.and_eq_true, Bool.not_eq_true', Bool.not_eq_true'] at hd
  rw [h.device_eq]
  exact hd.2

/-- A period is no time at all or at least a second. -/
theorem period_eq_or_le (h : e.Accepts s received a) :
    a.rule.period = ⟨0⟩ ∨ 1000000000 ≤ a.rule.period.nanos := by
  obtain ⟨n, hn, -, hp⟩ := (Submission.ok_of_rule h.rule).period_eq
  rcases Int.lt_or_eq_of_le hn with hpos | rfl
  · exact .inr (by omega)
  · rw [Int.zero_mul] at hp
    exact .inl (congrArg Span.mk hp)

end Evaluator.Accepts

theorem Evaluator.Accepts.second_le_period {σ : Type} {e : Evaluator σ} {s : Submission}
    {received : Instant} {a : Accepted} (h : e.Accepts s received a) {readings : List Reading}
    {certainty : Float} (hv : a.rule.verdict (a.rule.tally readings a.now) = .satisfied certainty) :
    1000000000 ≤ a.rule.period.nanos :=
  h.period_eq_or_le.resolve_left (Rule.period_ne_of_satisfied hv)

end TriggerWatch
