import TriggerWatch.Proofs.Acceptance
import TriggerWatch.Proofs.Episodes

/-!
# How evaluations end

An evaluation has an outcome or fails with a cause, whatever the stores hold and whatever happens to
the calls: a call that is not answered fails at its deadline, and a window or a wait that would lead
out of the calendar is cut off. The horizon of a history is the exception. It is not cut off, so a
submission that lies at the very begin of the calendar stops the evaluation.

## Main definitions

- `Episode.IsAnswered` — there is an outcome or the cause of a failure
- `Evaluator.IsTooEarly` — the history of a submission would begin before the calendar
- `Submission.earlyText` — a message that is readable and too early

## Main statements

- `Evaluator.isAnswered_or_isTooEarly` — how evaluations under the standard settings end
- `Evaluator.stop?_of_earlyText` — a message that stops the evaluation
-/

namespace TriggerWatch

open Memory (Backing Change)

variable {b : Backing} {e : Evaluator Memory}

/-- An episode ended with an outcome or with the cause of a failure. -/
def Episode.IsAnswered (ep : Episode) : Prop :=
  (∃ outcome, ep.result = .ok outcome) ∨ ∃ failure, ep.result = .error (.failed failure)

namespace Evaluator

/-- The horizon of an accepted submission would lie before the calendar. -/
def IsTooEarly (e : Evaluator Memory) (request : Request) : Prop :=
  ∃ a, e.accept request.submission request.clock.received = .ok a ∧
    a.now.toNanos - e.retention.nanos < firstSecond * 1000000000

theorem Judges.ended {a : Accepted} {m : Memory} {r : Except (Stop EvaluationFailure) Outcome}
    {fx : List Change} (h : Judges b e a m r fx) :
    (∃ result : Except EvaluationFailure Outcome, r = result.mapError .failed) ∨
      (r = .error .outsideCalendar ∧ a.now.sub? e.retention = none) := by
  cases h with
  | offCalendar hs => exact .inr ⟨rfl, hs⟩
  | historyFailed cause | cooldownFailed cause | stateFailed cause =>
    exact .inl ⟨.error (.storeUnavailable _ cause), rfl⟩
  | pending | below | suppressed | fired => exact .inl ⟨.ok _, rfl⟩

theorem Runs.ended {s : Submission} {received : Instant} {m : Memory}
    {r : Except (Stop EvaluationFailure) Outcome} {fx : List Change}
    (h : Runs b e s received m r fx) :
    (∃ result : Except EvaluationFailure Outcome, r = result.mapError .failed) ∨
      (r = .error .outsideCalendar ∧
        ∃ a, e.accept s received = .ok a ∧ a.now.sub? e.retention = none) := by
  cases h with
  | @refused m failure h => exact .inl ⟨.error failure, rfl⟩
  | accepted ha hj =>
    rcases hj.ended with hanswer | ⟨hr, hs⟩
    · exact .inl hanswer
    · exact .inr ⟨hr, _, ha, hs⟩

/-- Entering an answer in the trail leads to an answer. -/
theorem Enters.ended {s : Submission} {recorded : Instant} {m : Memory}
    {result : Except EvaluationFailure Outcome} {r : Except (Stop EvaluationFailure) Outcome}
    {gx : List Change} (h : Enters e s recorded (result.mapError .failed) m r gx) :
    (∃ outcome, r = .ok outcome) ∨ ∃ failure, r = .error (.failed failure) := by
  cases result with
  | ok outcome =>
    cases h with
    | unnamed | entered => exact .inl ⟨outcome, rfl⟩
    | lost cause => exact .inr ⟨_, rfl⟩
  | error failure =>
    cases h with
    | unnamed | enteredFailure | missed => exact .inr ⟨failure, rfl⟩

theorem Enters.eq_outsideCalendar {s : Submission} {recorded : Instant} {m : Memory}
    {r : Except (Stop EvaluationFailure) Outcome} {gx : List Change}
    (h : Enters e s recorded (.error .outsideCalendar) m r gx) : r = .error .outsideCalendar := by
  cases h <;> rfl

theorem Judges.eq_outsideCalendar {a : Accepted} {m : Memory}
    {r : Except (Stop EvaluationFailure) Outcome} {fx : List Change} (h : Judges b e a m r fx)
    (hs : a.now.sub? e.retention = none) (hm : ¬ m.IsFaulty) : r = .error .outsideCalendar := by
  cases h with
  | offCalendar => rfl
  | historyFailed cause hf => exact absurd hf hm
  | pending hs' | below hs' | suppressed hs' | fired hs' | cooldownFailed _ _ hs'
  | stateFailed _ _ hs' => cases hs.symm.trans hs'

/-- An evaluation is stopped at most by the horizon of its history. -/
theorem isAnswered_or_sub?_eq_none (he : e.IsInMemory b) (session : Session Memory)
    (request : Request) :
    (e.episode session request).IsAnswered ∨
      ((e.episode session request).stop? = some .outsideCalendar ∧
        ∃ a, e.accept request.submission request.clock.received = .ok a ∧
          a.now.sub? e.retention = none) := by
  obtain ⟨fx, gx, hr, hx, -⟩ := evaluate_course he request.submission request.clock session
  rcases hr.ended with ⟨result, hran⟩ | ⟨hran, hearly⟩
  · rw [hran] at hx
    exact .inl hx.ended
  · rw [hran] at hx
    have hresult : (e.episode session request).result = .error .outsideCalendar :=
      hx.eq_outsideCalendar
    exact .inr ⟨by rw [Episode.stop?, hresult], hearly⟩

/-- Without faults the horizon of a history does stop an evaluation. -/
theorem stop?_of_sub?_eq_none (he : e.IsInMemory b) {session : Session Memory} {request : Request}
    {a : Accepted} (ha : e.accept request.submission request.clock.received = .ok a)
    (hs : a.now.sub? e.retention = none) (hm : ¬ session.stores.IsFaulty) :
    (e.episode session request).stop? = some .outsideCalendar := by
  obtain ⟨fx, gx, hr, hx, -⟩ := evaluate_course he request.submission request.clock session
  rw [(hr.judges ha).eq_outsideCalendar hs hm] at hx
  have hresult : (e.episode session request).result = .error .outsideCalendar :=
    hx.eq_outsideCalendar
  rw [Episode.stop?, hresult]

/-- Under the standard settings an evaluation has an outcome or fails with a cause, except for a
submission so early that its horizon lies before the calendar. Only that horizon stops it: neither
the windows of a rule nor the wait of a trigger do, however long the period is. On stores without
faults such a submission always stops the evaluation. -/
theorem isAnswered_or_isTooEarly (b : Backing) (session : Session Memory) (request : Request) :
    (((standard b).episode session request).IsAnswered ∨
      (((standard b).episode session request).stop? = some .outsideCalendar ∧
        (standard b).IsTooEarly request)) ∧
    ((standard b).IsTooEarly request → ¬ session.stores.IsFaulty →
      ((standard b).episode session request).stop? = some .outsideCalendar) := by
  have hin := isInMemory_of_inMemory? (inMemory?_default b)
  have hretention : 1000000000 ≤ (standard b).retention.nanos := by cases b <;> decide
  refine ⟨?_, ?_⟩
  · rcases isAnswered_or_sub?_eq_none hin session request with hanswered | ⟨hstop, a, ha, hs⟩
    · exact .inl hanswered
    · exact .inr ⟨hstop, a, ha, (Instant.sub?_eq_none_iff hretention).mp hs⟩
  · rintro ⟨a, ha, hlt⟩ hm
    exact stop?_of_sub?_eq_none hin ha ((Instant.sub?_eq_none_iff hretention).mpr hlt) hm

end Evaluator

/-- A message whose timestamp is the first second of the calendar. -/
def Submission.earlyText : String :=
  "\x7b\"device\":\"boiler\",\"attribute\":\"level\",\"value\":3," ++
  "\"timestamp\":\"-262143-01-01T00:00:00\",\"trigger_name\":\"low\"," ++
  "\"trigger_attribute\":\"level\",\"trigger_lower_limit\":4,\"trigger_certainty\":0.5," ++
  "\"trigger_period\":60\x7d"

/-- The message is readable, and on empty stores without faults it stops the evaluation. -/
theorem Evaluator.stop?_of_earlyText :
    ∃ request : Request, Submission.ofText? Submission.earlyText = some request.submission ∧
      ((standard .apart).episode (.fresh fun _ => none) request).stop? = some .outsideCalendar := by
  have hstop : ((Submission.ofText? Submission.earlyText).map fun submission =>
      ((standard .apart).episode (.fresh fun _ => none)
        { submission, clock := { received := .earliest, recorded := .earliest } }).stop?) =
      some (some .outsideCalendar) := by
    decide +kernel
  obtain ⟨submission, hread, hstop⟩ := Option.map_eq_some_iff.mp hstop
  exact ⟨{ submission, clock := { received := .earliest, recorded := .earliest } }, hread, hstop⟩

/-- It does so because it is too early. -/
theorem Evaluator.isTooEarly_of_earlyText :
    ∃ request : Request, Submission.ofText? Submission.earlyText = some request.submission ∧
      (standard .documents).IsTooEarly request ∧
      ((standard .documents).episode (.fresh fun _ => none) request).stop? =
        some .outsideCalendar := by
  have haccepted : ((Submission.ofText? Submission.earlyText).bind fun submission =>
      ((standard .documents).accept submission .earliest).toOption.filter fun a =>
        a.now.toNanos - (standard .documents).retention.nanos < firstSecond * 1000000000).isSome =
      true := by
    decide +kernel
  obtain ⟨a, haccepted⟩ := Option.isSome_iff_exists.mp haccepted
  obtain ⟨submission, hread, haccepted⟩ := Option.bind_eq_some_iff.mp haccepted
  obtain ⟨ha, hlt⟩ := Option.filter_eq_some_iff.mp haccepted
  have hearly : (standard .documents).IsTooEarly
      { submission, clock := { received := .earliest, recorded := .earliest } } :=
    ⟨a, eq_ok_of_toOption ha, of_decide_eq_true hlt⟩
  exact ⟨_, hread, hearly,
    (isAnswered_or_isTooEarly .documents _ _).2 hearly Session.not_isFaulty_fresh⟩

end TriggerWatch
