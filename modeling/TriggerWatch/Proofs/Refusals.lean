import TriggerWatch.Proofs.Calls
import TriggerWatch.Proofs.Spacing

/-!
# Refusals

A submission is checked before any store is called, and the checks look at the submission and the
settings alone. If it has a timestamp, not even the clock matters. So a submission that is refused
once is refused every time and for the same reason, and its refusals touch nothing but its trail.
One that is not refused can only fail because of a store.

## Main statements

- `Evaluator.accept_congr` — the clock does not matter
- `Evaluator.isRejection_of_accept` — every failed check is a refusal
- `Evaluator.episode_of_refused` — what becomes of a refused submission
- `Evaluator.refused_or_admitted` — a submission is refused always or never
-/

namespace TriggerWatch

open Memory (Backing Call Change)

variable {b : Backing} {e : Evaluator Memory} {s : Submission}

theorem Submission.time_congr (hs : s.timestamp.isSome) (fallback fallback' : Instant) :
    s.time fallback = s.time fallback' := by
  obtain ⟨raw, hraw⟩ := Option.isSome_iff_exists.mp hs
  rw [time, time, hraw]

namespace Evaluator

/-- The clock does not matter to the checks of a submission that has a timestamp. -/
theorem accept_congr (e : Evaluator Memory) (hs : s.timestamp.isSome)
    (received received' : Instant) : e.accept s received = e.accept s received' := by
  rw [accept, accept, Submission.time_congr hs received received']

/-- A submission that fails a check is refused. -/
theorem isRejection_of_accept {received : Instant} {failure : EvaluationFailure}
    (h : e.accept s received = .error failure) : failure.isRejection = true := by
  rw [accept] at h
  cases hr : s.checkReading with
  | error flaw => rw [hr] at h; cases h; rfl
  | ok _ =>
    cases hu : s.rule with
    | error flaw => rw [hr, hu] at h; cases h; rfl
    | ok rule =>
      cases hv : e.beacons.resolve s.value s.beacon with
      | error beacon => rw [hr, hu, hv] at h; cases h; rfl
      | ok value =>
        cases ht : s.time received with
        | error flaw => rw [hr, hu, hv, ht] at h; cases h; rfl
        | ok now => rw [hr, hu, hv, ht] at h; cases h

/-! ### Refused submissions -/

variable {clock : ClockReadings} {failure : EvaluationFailure}

theorem evaluate_dials_of_refused (hdirect : e.documents.IsDirect)
    (h : e.accept s clock.received = .error failure) :
    Dials (fun call => ∃ key ∈ trailKeys s, call.IsOn key) (e.evaluate s clock) := by
  rw [evaluate, run_of_refused h]
  exact (Dials.ofExcept (.error failure)).attempt.bind fun _ result _ =>
    enterTrail_dials hdirect s result clock.recorded

/-- A submission that fails a check is refused for this flaw, whatever the stores hold and whatever
happens to the calls. All that is touched is its trail, if it names one. -/
theorem episode_of_refused {settings : Settings.Evaluation} (he : inMemory? b settings = some e)
    (h : e.accept s clock.received = .error failure) (session : Session Memory) :
    (e.episode session ⟨s, clock⟩).result = .error (.failed failure) ∧
      (e.episode session ⟨s, clock⟩).KeepsTo b (trailKeys s) := by
  have hrun : (e.run s clock.received).onSession session = (.error (.failed failure), session) := by
    rw [run_of_refused h]
    rfl
  obtain ⟨fx, gx, hr, hx, ev⟩ :=
    evaluate_course (isInMemory_of_inMemory? he) s clock session
  rw [hrun] at hr hx
  cases hr with
  | accepted ha => cases h.symm.trans ha
  | refused => exact ⟨hx.eq_of_failed, keepsTo_episode
      (evaluate_dials_of_refused (isDirect_of_inMemory? he) h) ev hx.exists_trailKey
      (shadow_not_mem_trailKeys s)⟩

/-! ### Admitted submissions -/

/-- The steps after the checks fail only at a store. -/
theorem Judges.isRejection_eq_false {a : Accepted} {m : Memory} {fx : List Change}
    (h : Judges b e a m (.error (.failed failure)) fx) : failure.isRejection = false := by
  cases h <;> rfl

theorem Enters.isRejection_eq_false {recorded : Instant} {m : Memory} {gx : List Change}
    {ran : Except (Stop EvaluationFailure) Outcome}
    (h : Enters e s recorded ran m (.error (.failed failure)) gx)
    (hran : ∀ failure, ran = .error (.failed failure) → failure.isRejection = false) :
    failure.isRejection = false := by
  cases h with
  | lost => rfl
  | unnamed | enteredFailure | missed => exact hran _ rfl

/-- A submission that passes the checks fails only at a store. -/
theorem isRejection_of_accepted (he : e.IsInMemory b) {a : Accepted}
    (h : e.accept s clock.received = .ok a) {session : Session Memory}
    (hr : (e.episode session ⟨s, clock⟩).result = .error (.failed failure)) :
    failure.isRejection = false := by
  obtain ⟨fx, gx, hran, hx, -⟩ := evaluate_course he s clock session
  have hj := hran.judges h
  have hresult : ((e.evaluate s clock).onSession session).1 = .error (.failed failure) := hr
  rw [hresult] at hx
  refine hx.isRejection_eq_false fun cause hcause => ?_
  rw [hcause] at hj
  exact hj.isRejection_eq_false

/-- A submission with a timestamp is refused always or never. Where it is refused, it is refused
with the same failure at all times, on all stores and with all faults; no call is made but on its
trail, and nothing else is changed. It has a trail only if its device and its trigger can stand in a
key, and otherwise no call is made at all. Where it is not refused, every failure is one of a
store. -/
theorem refused_or_admitted {settings : Settings.Evaluation} (he : inMemory? b settings = some e)
    (hs : s.timestamp.isSome) :
    (∃ failure, failure.isRejection = true ∧ ∀ clock session,
      (e.episode session ⟨s, clock⟩).result = .error (.failed failure) ∧
      (e.episode session ⟨s, clock⟩).KeepsTo b
        (if Key.isAddressable s.device && Key.isAddressable s.trigger then
          [Key.trail s.device s.trigger] else [])) ∨
    ∀ clock session failure, (e.episode session ⟨s, clock⟩).result = .error (.failed failure) →
      failure.isRejection = false := by
  -- the checks do not look at the clock, so any reading of it decides which of the two holds
  cases ha : e.accept s .earliest with
  | error failure =>
    refine .inl ⟨failure, isRejection_of_accept ha, fun clock session => ?_⟩
    rw [accept_congr e hs _ clock.received] at ha
    exact episode_of_refused he ha session
  | ok a =>
    refine .inr fun clock session failure hr => ?_
    rw [accept_congr e hs _ clock.received] at ha
    exact isRejection_of_accepted (isInMemory_of_inMemory? he) ha hr

/-- A reading with a rule whose period is negative. -/
def negativePeriod : Submission :=
  { (Request.sample "2024-05-01T10:00:00Z").submission with period := some (-1) }

/-- Such a reading is refused at all times and on all stores, and all it touches is its trail. -/
theorem refused_of_negativePeriod :
    ∃ failure : EvaluationFailure, failure.isRejection = true ∧
      ∀ clock session,
        ((standard .documents).episode session ⟨negativePeriod, clock⟩).result =
          .error (.failed failure) ∧
        ((standard .documents).episode session ⟨negativePeriod, clock⟩).KeepsTo .documents
          ["boiler/low/audit.json"] := by
  have hstop : ((standard .documents).episode (.fresh fun _ => none)
      ⟨negativePeriod, ⟨.earliest, .earliest⟩⟩).stop? =
      some (.failed (.badRule "trigger_period must not be negative, got -1")) := by
    decide +kernel
  have htrail : (if Key.isAddressable negativePeriod.device &&
      Key.isAddressable negativePeriod.trigger then
        [Key.trail negativePeriod.device negativePeriod.trigger] else []) =
      ["boiler/low/audit.json"] := by
    decide +kernel
  rcases refused_or_admitted (s := negativePeriod) (inMemory?_default .documents) rfl with
    hrefused | hadmitted
  · rw [htrail] at hrefused
    exact hrefused
  · rw [Episode.stop?] at hstop
    split at hstop
    · cases hstop
    · next stop hresult =>
      cases hstop
      have hfalse := hadmitted _ _ _ hresult
      cases hfalse

end Evaluator

end TriggerWatch
