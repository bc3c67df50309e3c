import TriggerWatch.Proofs.Bands
import TriggerWatch.Proofs.Periods
import TriggerWatch.Proofs.SettingsInForce
import TriggerWatch.Proofs.ShortWindows

/-!
# Whether a reading counts when it is judged

The rule of a submission is judged at the time of its own reading, when this has joined the history.
The time in the record is cut off at the microsecond, but the horizon of the history and the begin
of the window are found from the full time. Where they lie a second or more back this does not
matter. A history or a window without length ends at the full time, and a reading with a time below
the microsecond is lost: it leaves the history at once, or it lies before the window.

## Main definitions

- `Accepted.IsFound` — a reading is found in its history and in its window

## Main statements

- `Instant.sub?_le_truncated_iff` — which moves back undo what was cut off
- `Accepted.tally_kept` — a history with a reading that has just joined it
- `Evaluator.counts_own_reading` — the counts of an evaluation, with and without its own reading
-/

namespace TriggerWatch

open Memory (Backing)

variable {b : Backing} {e : Evaluator Memory} {a : Accepted}

namespace Instant

theorem le_truncated_iff {t : Instant} : t ≤ t.truncated ↔ t.truncated = t := by
  constructor
  · intro h
    obtain ⟨s, n, _, _, _, _⟩ := t
    rw [le_iff] at h
    simp only [truncated, mk.injEq, true_and] at h ⊢
    omega
  · intro h
    rw [h]
    exact le_refl t

/-- A move back by a second or more undoes what was cut off, and a move by nothing does not. -/
theorem sub?_le_truncated_iff {t u : Instant} {d : Span} (hd : d = ⟨0⟩ ∨ 1000000000 ≤ d.nanos)
    (h : t.sub? d = some u) : u ≤ t.truncated ↔ t.truncated = t ∨ d ≠ ⟨0⟩ := by
  rcases hd with rfl | hd
  · rw [sub?_zero] at h
    cases h
    rw [le_truncated_iff]
    exact ⟨.inl, fun hor => hor.resolve_right fun hne => hne rfl⟩
  · have hne : d ≠ ⟨0⟩ := by
      rintro rfl
      exact absurd hd (by decide)
    have hle : u ≤ t.truncated := by
      have hnanos := t.nanos_lt
      rw [sub?_of_nonneg (by omega), if_neg (by omega)] at h
      have hu := toNanos_of_ofNanos? h
      have hleap := not_isLeap_of_ofNanos? h
      rw [le_iff]
      simp only [toNanos, isLeap, truncated] at hu hleap ⊢
      omega
    exact ⟨fun _ => .inr hne, fun _ => hle⟩

end Instant

/-- The window of a rule reaches back to the time of its reading as it was written. -/
theorem Rule.windowStart_le_truncated_iff {r : Rule} {now : Instant}
    (h : r.period = ⟨0⟩ ∨ 1000000000 ≤ r.period.nanos) :
    r.windowStart now ≤ now.truncated ↔ now.truncated = now ∨ r.period ≠ ⟨0⟩ := by
  rw [windowStart]
  cases hs : now.sub? r.period with
  | some start => exact Instant.sub?_le_truncated_iff h hs
  | none =>
    refine ⟨fun _ => .inr ?_, fun _ => Instant.earliest_le _⟩
    intro hzero
    rw [hzero, Instant.sub?_zero] at hs
    cases hs

/-- A reading is found in its history and in its window: its time is a whole number of microseconds,
or both of them have a length. -/
def Accepted.IsFound (a : Accepted) (retention : Span) : Prop :=
  a.now.truncated = a.now ∨ (a.rule.period ≠ ⟨0⟩ ∧ retention ≠ ⟨0⟩)

instance (a : Accepted) (retention : Span) : Decidable (a.IsFound retention) :=
  inferInstanceAs (Decidable (_ ∨ _))

namespace Accepted

theorem isFound_iff {retention : Span} {horizon : Instant}
    (hr : retention = ⟨0⟩ ∨ 1000000000 ≤ retention.nanos)
    (hp : a.rule.period = ⟨0⟩ ∨ 1000000000 ≤ a.rule.period.nanos)
    (hh : a.now.sub? retention = some horizon) :
    a.IsFound retention ↔
      horizon ≤ a.now.truncated ∧ a.rule.windowStart a.now ≤ a.now.truncated := by
  rw [Instant.sub?_le_truncated_iff hr hh, Rule.windowStart_le_truncated_iff hp, IsFound,
    ← or_and_left, and_comm]

/-- The reading is read back from its record, as far as the record stays. -/
theorem ofRecords_own {horizon : Instant} (hlegible : a.reading.IsLegible)
    (htime : a.reading.timestamp = a.now) :
    Reading.ofRecords (History.keepRecent horizon [a.reading.toJson]) =
      if horizon ≤ a.now.truncated then [a.reading.truncated] else [] := by
  have hkept : History.isRecent horizon a.reading.toJson = decide (horizon ≤ a.now.truncated) := by
    rw [History.isRecent, History.timestamp?_toJson hlegible.year, htime]
  by_cases hle : horizon ≤ a.now.truncated
  · have hrecords : History.keepRecent horizon [a.reading.toJson] = [a.reading.toJson] :=
      List.filter_cons_of_pos (hkept.trans (decide_eq_true hle))
    rw [hrecords, if_pos hle]
    exact List.filterMap_cons_some (Reading.ofJson?_toJson hlegible)
  · have hrecords : History.keepRecent horizon [a.reading.toJson] = [] :=
      List.filter_cons_of_neg (by rw [hkept]; exact decide_eq_false hle ▸ Bool.false_ne_true)
    rw [hrecords, if_neg hle]
    rfl

end Accepted

theorem Rule.tally_singleton {r : Rule} (now : Instant) {x : Reading}
    (h : r.period = ⟨0⟩ ∨ 1000000000 ≤ r.period.nanos) (hattr : x.attr = r.attr) :
    (r.tally [x] now).tested = (if r.windowStart now ≤ x.timestamp then 1 else 0) ∧
      (r.tally [x] now).satisfied =
        if r.windowStart now ≤ x.timestamp ∧ r.condition.holds x.value then 1 else 0 := by
  have hwatched : r.watched [x] = [x] := List.filter_cons_of_pos (beq_iff_eq.mpr hattr)
  rw [tally_eq h, hwatched]
  simp only [List.countP_singleton, Bool.and_eq_true, decide_eq_true_eq, and_self]

/-- What a reading adds to the tally of its history. -/
theorem Accepted.tally_kept {retention : Span} {horizon : Instant} (hlegible : a.reading.IsLegible)
    (htime : a.reading.timestamp = a.now) (hattr : a.reading.attr = a.rule.attr)
    (hr : retention = ⟨0⟩ ∨ 1000000000 ≤ retention.nanos)
    (hp : a.rule.period = ⟨0⟩ ∨ 1000000000 ≤ a.rule.period.nanos)
    (hh : a.now.sub? retention = some horizon) (document : Option Json) :
    let earlier := a.rule.tally
      (Reading.ofRecords (History.keepRecent horizon (History.recordsOf document))) a.now
    let tally := a.rule.tally
      (Reading.ofRecords (History.kept horizon document a.reading)) a.now
    (a.IsFound retention → tally.tested = earlier.tested + 1 ∧ tally.satisfied =
      earlier.satisfied + if a.rule.condition.holds a.reading.value then 1 else 0) ∧
    (¬ a.IsFound retention →
      tally.tested = earlier.tested ∧ tally.satisfied = earlier.satisfied) := by
  intro earlier tally
  -- the reading's own record comes last, so it stays or goes by itself
  have hjoin : tally = earlier.join (a.rule.tally
      (Reading.ofRecords (History.keepRecent horizon [a.reading.toJson])) a.now) := by
    rw [← Rule.tally_append]
    show a.rule.tally (Reading.ofRecords (List.filter _ _)) a.now = _
    rw [List.filter_append, Reading.ofRecords, List.filterMap_append]
    rfl
  have hown : a.reading.truncated.attr = a.rule.attr := hattr
  obtain ⟨htested, hsatisfied⟩ := Rule.tally_singleton a.now hp hown
  have hwritten : a.reading.truncated.timestamp = a.now.truncated :=
    congrArg Instant.truncated htime
  rw [hwritten] at htested hsatisfied
  rw [hjoin, ofRecords_own hlegible htime, isFound_iff hr hp hh]
  by_cases hkept : horizon ≤ a.now.truncated
  · rw [if_pos hkept]
    by_cases hinside : a.rule.windowStart a.now ≤ a.now.truncated
    · simp only [hinside, if_true, true_and] at htested hsatisfied
      refine ⟨fun _ => ⟨congrArg (earlier.tested + ·) htested, ?_⟩, ?_⟩
      · exact congrArg (earlier.satisfied + ·) hsatisfied
      · exact fun hlost => absurd ⟨hkept, hinside⟩ hlost
    · simp only [hinside, if_false, false_and] at htested hsatisfied
      refine ⟨fun hfound => absurd hfound.2 hinside, fun _ => ⟨?_, ?_⟩⟩
      · exact congrArg (earlier.tested + ·) htested
      · exact congrArg (earlier.satisfied + ·) hsatisfied
  · rw [if_neg hkept]
    exact ⟨fun hfound => absurd hfound.1 hkept, fun _ => ⟨rfl, rfl⟩⟩

namespace Evaluator

theorem nonneg_retention {settings : Settings.Evaluation} (he : inMemory? b settings = some e)
    (hretention : settings.retention ≤ Span.maxSeconds) : ⟨0⟩ ≤ e.retention := by
  have hspan := (exists_of_ofSettings? _ _ _ he).1
  rw [Span.ofSeconds?_toSigned64 hretention] at hspan
  rw [← Option.some.inj hspan, Span.le_iff, Span.ofSeconds]
  simp only
  omega

/-- Without faults an accepted submission about the attribute of its rule has an outcome, whatever
the stores hold. Its reading adds to the counts what the rest of the history comes to, if its time
is a whole number of microseconds or both the period and the retention time have a length. Otherwise
it adds nothing. -/
theorem counts_own_reading {settings : Settings.Evaluation} (he : inMemory? b settings = some e)
    (hretention : settings.retention ≤ Span.maxSeconds) {request : Request} {text : String}
    (hread : Submission.ofText? text = some request.submission)
    (ha : e.accept request.submission request.clock.received = .ok a)
    (hattr : a.reading.attr = a.rule.attr) (hyear : a.now.HasPlainYear) {horizon : Instant}
    (hh : a.now.sub? e.retention = some horizon) {session : Session Memory}
    (hs : ¬ session.stores.IsFaulty) :
    ∃ outcome, (e.episode session request).result = .ok outcome ∧
      let earlier := a.rule.tally (Reading.ofRecords (History.keepRecent horizon
        (History.recordsOf (session.stores.document? (Key.history a.reading.device))))) a.now
      (a.IsFound e.retention → outcome.tested = earlier.tested + 1 ∧ outcome.satisfied =
        earlier.satisfied + if a.rule.condition.holds a.reading.value then 1 else 0) ∧
      (¬ a.IsFound e.retention →
        outcome.tested = earlier.tested ∧ outcome.satisfied = earlier.satisfied) := by
  have haccepts := ok_of_accept ha
  obtain ⟨kind, hresult, -⟩ := exists_result_episode (isInMemory_of_inMemory? he) hs ha hh
  have hlegible := haccepts.isLegible (Submission.isFinite_value hread) hyear
  exact ⟨_, hresult, Accepted.tally_kept hlegible haccepts.timestamp_eq hattr
    (retention_eq_or_le he (nonneg_retention he hretention)) haccepts.period_eq_or_le hh _⟩

/-- A reading of 3 at half a microsecond past the hour, with a rule for the given period. -/
def halfPast (period : Nat) : Request :=
  let request := Request.sample "2024-05-01T10:00:00.0000005Z"
  { request with submission := { request.submission with period := some period } }

/-- The message of this reading, in the form without names of fields. -/
def halfPastText (period : Nat) : String :=
  "[\"boiler\",\"level\",3,\"2024-05-01T10:00:00.0000005Z\",\"low\",\"level\"," ++
    "null,null,4,0.5," ++ toString period ++ "]"

/-- With a period of a minute the reading counts in its own evaluation. -/
theorem counts_own_reading_of_halfPast :
    ∃ outcome, ((standard .documents).episode (.fresh fun _ => none) (halfPast 60)).result =
      .ok outcome ∧ outcome.tested = 1 ∧ outcome.satisfied = 1 := by
  have haccepted : (((standard .documents).accepted? (halfPast 60)).any fun a =>
      decide (a.reading.attr = a.rule.attr ∧ a.now.HasPlainYear ∧
        a.IsFound (standard .documents).retention) &&
      a.rule.condition.holds a.reading.value &&
      (a.now.sub? (standard .documents).retention).isSome) = true := by
    decide +kernel
  obtain ⟨a, ha, hshown⟩ := (Option.any_eq_true _ _).mp haccepted
  simp only [Bool.and_eq_true, decide_eq_true_eq] at hshown
  obtain ⟨⟨⟨hattr, hyear, hfound⟩, hholds⟩, hcal⟩ := hshown
  obtain ⟨horizon, hh⟩ := Option.isSome_iff_exists.mp hcal
  have hread : Submission.ofText? (halfPastText 60) = some (halfPast 60).submission := by
    decide +kernel
  obtain ⟨outcome, hresult, hcounts, -⟩ := counts_own_reading (inMemory?_default .documents)
    (by decide) hread (eq_ok_of_toOption ha) hattr hyear hh Session.not_isFaulty_fresh
  obtain ⟨htested, hsatisfied⟩ := hcounts hfound
  rw [hholds] at hsatisfied
  exact ⟨outcome, hresult, htested, hsatisfied⟩

/-- With a period of no time it does not, although its value meets the condition: it lies before a
window that begins at its own time. -/
theorem tested_eq_zero_of_halfPast :
    Submission.ofText? (halfPastText 0) = some (halfPast 0).submission ∧
    ∃ (a : Accepted) (outcome : Outcome),
      (standard .documents).accept (halfPast 0).submission (halfPast 0).clock.received = .ok a ∧
      a.reading.attr = a.rule.attr ∧ a.now.HasPlainYear ∧
      a.rule.condition.holds a.reading.value = true ∧
      ((standard .documents).episode (.fresh fun _ => none) (halfPast 0)).result = .ok outcome ∧
      outcome.tested = 0 := by
  have haccepted : (((standard .documents).accepted? (halfPast 0)).any fun a =>
      decide (a.reading.attr = a.rule.attr ∧ a.now.HasPlainYear) &&
        a.rule.condition.holds a.reading.value) = true := by
    decide +kernel
  have hresult : ((standard .documents).episode (.fresh fun _ => none)
      (halfPast 0)).result.toOption.any (fun outcome => outcome.tested == 0) = true := by
    decide +kernel
  obtain ⟨a, ha, hshown⟩ := (Option.any_eq_true _ _).mp haccepted
  obtain ⟨outcome, ho, htested⟩ := (Option.any_eq_true _ _).mp hresult
  simp only [Bool.and_eq_true, decide_eq_true_eq] at hshown
  exact ⟨by decide +kernel, a, outcome, eq_ok_of_toOption ha, hshown.1.1, hshown.1.2, hshown.2,
    eq_ok_of_toOption ho, eq_of_beq htested⟩

end Evaluator

end TriggerWatch
