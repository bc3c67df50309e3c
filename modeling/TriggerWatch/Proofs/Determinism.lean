import TriggerWatch.Proofs.Acceptance
import TriggerWatch.Proofs.Effects
import TriggerWatch.Proofs.Episodes

/-!
# Evaluations without faults are functions of the stores

Where no call meets a fault, the result of an evaluation and the changes it makes follow from the
stores before it. The functions below say how; they read the documents of one device only.

## Main definitions

- `Evaluator.judged` — the result and the changes of an accepted submission
- `Evaluator.trailChanges` — the entry of a result in the trail
- `Evaluator.course` — the result and the changes of an evaluation

## Main statements

- `Evaluator.episode_course` — an evaluation without faults follows its course
-/

namespace TriggerWatch

open Memory (Backing Change)

variable {b : Backing} {e : Evaluator Memory} {m : Memory}

instance (a : Accepted) (m : Memory) (floor : Span) : Decidable (a.IsHeld m floor) :=
  decidable_of_iff ((m.lastFire? a.reading.device a.rule.trigger).any fun last =>
    Cooldown.isCooling (max a.rule.period floor) last a.now) (Option.any_eq_true _ _)

namespace Evaluator

/-- What a verdict comes to on stores without faults: a kind of outcome, and the changes that follow
the change of the history. -/
def settled (b : Backing) (e : Evaluator Memory) (a : Accepted) (m : Memory) :
    Verdict → Outcome.Kind × List Change
  | .pending => (.pending, [])
  | .below _ => (.belowThreshold, [])
  | .satisfied certainty =>
    if a.IsHeld m e.minCooldown then (.suppressed, [])
    else (.fired, a.putCooldown ::
      (m.updateChanges b a.reading.device (a.attributes certainty) ++ [a.announce certainty true]))

/-- The result and the changes of an accepted submission on stores without faults. -/
def judged (b : Backing) (e : Evaluator Memory) (a : Accepted) (m : Memory) :
    Except (Stop EvaluationFailure) Outcome × List Change :=
  match a.now.sub? e.retention with
  | none => (.error .outsideCalendar, [])
  | some horizon =>
    let settled := e.settled b a m (a.verdict horizon m)
    (.ok (a.outcome horizon m settled.1), a.putHistory horizon m :: settled.2)

/-- The entry of a result in the trail on stores without faults. -/
def trailChanges (e : Evaluator Memory) (s : Submission) (recorded : Instant) (m : Memory) :
    Except (Stop EvaluationFailure) Outcome → List Change
  | .ok outcome => if hasTrail s then [e.putTrail s (.ok outcome) recorded m] else []
  | .error (.failed failure) =>
    if hasTrail s then [e.putTrail s (.error failure) recorded m] else []
  | .error .unanswered => []
  | .error .outsideCalendar => []

/-- The result of the steps up to the outcome and their changes on stores without faults. -/
def ran (b : Backing) (e : Evaluator Memory) (s : Submission) (received : Instant) (m : Memory) :
    Except (Stop EvaluationFailure) Outcome × List Change :=
  match e.accept s received with
  | .error failure => (.error (.failed failure), [])
  | .ok a => e.judged b a m

/-- The result and the changes of an evaluation on stores without faults. -/
def course (b : Backing) (e : Evaluator Memory) (request : Request) (m : Memory) :
    Except (Stop EvaluationFailure) Outcome × List Change :=
  let ran := e.ran b request.submission request.clock.received m
  (ran.1, ran.2 ++ e.trailChanges request.submission request.clock.recorded m ran.1)

theorem Judges.eq_judged {a : Accepted} {r : Except (Stop EvaluationFailure) Outcome}
    {fx : List Change} (h : Judges b e a m r fx) (hm : ¬ m.IsFaulty) :
    (r, fx) = e.judged b a m := by
  cases h with
  | historyFailed cause hf | cooldownFailed cause hf | stateFailed cause hf => exact absurd hf hm
  | offCalendar hs => simp only [judged, hs]
  | pending hs hv | below hs hv => simp only [judged, hs, hv, settled]
  | suppressed hs hv hc => simp only [judged, hs, hv, settled, if_pos hc]
  | fired hs hv hc => simp only [judged, hs, hv, settled, if_neg hc]

theorem Runs.eq_ran {s : Submission} {received : Instant}
    {r : Except (Stop EvaluationFailure) Outcome} {fx : List Change}
    (h : Runs b e s received m r fx) (hm : ¬ m.IsFaulty) : (r, fx) = e.ran b s received m := by
  cases h with
  | refused ha => rw [ran, ha]
  | accepted ha hj =>
    rw [ran, ha]
    exact hj.eq_judged hm

theorem Enters.eq_trailChanges {s : Submission} {recorded : Instant}
    {ran r : Except (Stop EvaluationFailure) Outcome} {gx : List Change}
    (h : Enters e s recorded ran m r gx) (hm : ¬ m.IsFaulty) :
    r = ran ∧ gx = e.trailChanges s recorded m ran := by
  cases h with
  | missed hf | lost cause hf => exact absurd hf hm
  | offCalendar => exact ⟨rfl, rfl⟩
  | entered h | enteredFailure h => exact ⟨rfl, (if_pos h).symm⟩
  | unnamed h =>
    have hnone : ¬ hasTrail s = true := Bool.eq_false_iff.mp h
    refine ⟨rfl, ?_⟩
    rcases ran with (_ | _ | _) | _ <;> simp [trailChanges, hnone]

/-- On stores without faults an evaluation follows its course. -/
theorem episode_course (he : e.IsInMemory b) {session : Session Memory} (request : Request)
    (hm : ¬ session.stores.IsFaulty) :
    (e.episode session request).result = (e.course b request session.stores).1 ∧
      session.stores.Evolves b (e.course b request session.stores).2
        (e.episode session request).after.stores := by
  obtain ⟨fx, gx, hr, hx, ev⟩ := evaluate_course he request.submission request.clock session
  obtain ⟨hresult, rfl⟩ := hx.eq_trailChanges hm
  have hran := hr.eq_ran hm
  rw [course, ← hran]
  exact ⟨hresult, ev⟩

end Evaluator

end TriggerWatch
