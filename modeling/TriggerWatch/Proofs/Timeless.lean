import TriggerWatch.Proofs.Course

/-!
# Evaluations do not depend on the time

A session counts the time spent waiting. A store call has its deadline some time after it was made,
so it does not matter to an evaluation how much time was spent before it: the same evaluation, made
later, comes to the same result and leaves the same stores, and it takes the same time.

## Main definitions

- `Session.later` — the same session at a later time
- `Action.IsTimeless` — an action that does the same at any time
- `Evaluator.IsTimeless` — the calls that an evaluator makes are such actions

## Main statements

- `Action.IsTimeless.bind` and its like — the rules for composed actions
- `Evaluator.IsTimeless.evaluate` — an evaluation does the same at any time
-/

namespace TriggerWatch

variable {σ ε ε' α β : Type}

/-- The same session some milliseconds later. -/
def Session.later (milliseconds : Nat) (s : Session σ) : Session σ :=
  { s with
    elapsed := s.elapsed + milliseconds
    deadline := s.deadline.map (· + milliseconds) }

theorem Session.later_zero (s : Session σ) : s.later 0 = s := by
  rcases s with ⟨stores, elapsed, _ | due⟩ <;> rfl

/-- An action does the same at any time, and the deadline in force stays. -/
structure Action.IsTimeless (a : Action σ ε α) : Prop where
  later : ∀ milliseconds s, a.onSession (s.later milliseconds) =
    ((a.onSession s).1, (a.onSession s).2.later milliseconds)
  deadline : ∀ s, (a.onSession s).2.deadline = s.deadline

/-! ### Rules -/

namespace Action.IsTimeless

/-- A step on the stores alone. -/
theorem ofStores {a : Action σ ε α} (result : σ → Except (Stop ε) α) (after : σ → σ)
    (h : ∀ s, a.onSession s = (result s.stores, { s with stores := after s.stores })) :
    a.IsTimeless where
  later milliseconds s := by
    rw [h, h]
    rfl
  deadline s := by rw [h]

theorem ofExcept (r : Except ε α) : (Action.ofExcept r : Action σ ε α).IsTimeless := by
  cases r with
  | ok x => exact ofStores (fun _ => .ok x) id fun _ => rfl
  | error cause => exact ofStores (fun _ => .error (.failed cause)) id fun _ => rfl

theorem pure (x : α) : (Pure.pure x : Action σ ε α).IsTimeless := ofExcept (.ok x)

theorem inCalendar (x : Option α) : (Action.inCalendar x : Action σ ε α).IsTimeless := by
  cases x with
  | some x => exact pure x
  | none => exact ofStores (fun _ => .error .outsideCalendar) id fun _ => rfl

theorem stores : (Action.stores : Action σ ε σ).IsTimeless := ofStores .ok id fun _ => rfl

theorem modifyStores (f : σ → σ) : (Action.modifyStores f : Action σ ε Unit).IsTimeless :=
  ofStores (fun _ => .ok ()) f fun _ => rfl

/-- Whether a deadline is met depends on the time that is left. -/
theorem wait (milliseconds : Nat) : (Action.wait milliseconds : Action σ ε Unit).IsTimeless where
  later passed s := by
    rcases s with ⟨stores, elapsed, _ | due⟩
    · simp [Action.wait, onSession, ofStep, Session.later, Nat.add_right_comm]
    · have hleft : elapsed + passed + milliseconds ≤ due + passed ↔
          elapsed + milliseconds ≤ due := by omega
      simp only [Action.wait, onSession, ofStep, Session.later, Option.map_some, hleft]
      split <;> simp [Nat.add_right_comm]
  deadline s := by
    rcases s with ⟨stores, elapsed, _ | due⟩
    · rfl
    · simp only [Action.wait, onSession, ofStep]
      split <;> rfl

theorem bind {a : Action σ ε α} {f : α → Action σ ε β} (ha : a.IsTimeless)
    (hf : ∀ x, (f x).IsTimeless) : (a >>= f).IsTimeless where
  later milliseconds s := by
    have hlater := ha.later milliseconds s
    rcases hran : a.onSession s with ⟨stop | x, t⟩
    · rw [hran] at hlater
      rw [onSession_bind_error hlater, onSession_bind_error hran]
    · rw [hran] at hlater
      rw [onSession_bind_ok hlater, onSession_bind_ok hran, (hf x).later]
  deadline s := by
    have hkept := ha.deadline s
    rcases hran : a.onSession s with ⟨stop | x, t⟩
    · rw [hran] at hkept
      rw [onSession_bind_error hran]
      exact hkept
    · rw [hran] at hkept
      rw [onSession_bind_ok hran, (hf x).deadline]
      exact hkept

theorem attempt {a : Action σ ε α} (ha : a.IsTimeless) :
    (a.attempt : Action σ ε' (Except ε α)).IsTimeless where
  later milliseconds s := by rw [onSession_attempt, onSession_attempt, ha.later]
  deadline s := by rw [onSession_attempt, ha.deadline]

theorem mapFailure {a : Action σ ε α} (f : ε → ε') (ha : a.IsTimeless) :
    (a.mapFailure f).IsTimeless where
  later milliseconds s := by rw [onSession_mapFailure, onSession_mapFailure, ha.later]
  deadline s := by rw [onSession_mapFailure, ha.deadline]

/-- A deadline counts from the time at which it is set. -/
theorem within {a : Action σ ε α} (milliseconds : Nat) (late : ε) (ha : a.IsTimeless) :
    (a.within milliseconds late).IsTimeless where
  later passed s := by
    have hdue : { s.later passed with deadline := some ((s.later passed).elapsed + milliseconds) } =
        { s with deadline := some (s.elapsed + milliseconds) }.later passed := by
      simp [Session.later, Nat.add_right_comm]
    have hlater := ha.later passed { s with deadline := some (s.elapsed + milliseconds) }
    rw [← hdue] at hlater
    rcases hran : a.onSession { s with deadline := some (s.elapsed + milliseconds) } with
      ⟨(_ | _ | _) | x, t⟩ <;>
      rw [hran] at hlater <;>
      simp only [Action.within, onSession, ofStep] at hran hlater ⊢ <;>
      rw [hran, hlater] <;>
      simp [Session.later, Nat.add_right_comm]
  deadline s := by
    rcases hran : a.onSession { s with deadline := some (s.elapsed + milliseconds) } with
      ⟨(_ | _ | _) | x, t⟩ <;>
      simp only [Action.within, onSession, ofStep] at hran ⊢ <;>
      rw [hran]

end Action.IsTimeless

open TriggerWatch.Action (IsTimeless)

/-! ### Store calls -/

theorem Link.isTimeless_meet (refused : String → ε) (fault : Option Fault) :
    (meet refused fault : Action σ ε Unit).IsTimeless := by
  rcases fault with _ | message | _ | milliseconds
  · exact .pure ()
  · exact .ofExcept (.error (refused message))
  · exact .ofStores (fun _ => .error .unanswered) id fun _ => rfl
  · exact .wait milliseconds

namespace Memory

theorem isTimeless_reach (call : Call) : (reach call).IsTimeless :=
  IsTimeless.stores.bind fun _ => (IsTimeless.modifyStores _).bind fun _ =>
    Link.isTimeless_meet _ _

theorem isTimeless_getDocument (key : String) : (documentStore.get key).IsTimeless :=
  (isTimeless_reach _).bind fun _ => IsTimeless.stores.bind fun _ => .pure _

theorem isTimeless_putDocument (key : String) (document : Json) :
    (documentStore.put key document).IsTimeless :=
  (isTimeless_reach _).bind fun _ => .modifyStores _

theorem isTimeless_update (b : Backing) (device : String) (attributes : Dict Json) :
    ((shadows b).update device attributes).IsTimeless := by
  cases b with
  | apart => exact (isTimeless_reach _).bind fun _ => .modifyStores _
  | documents =>
    refine (isTimeless_reach _).bind fun _ => IsTimeless.bind ?_ fun _ => .modifyStores _
    exact (isTimeless_getDocument _).bind fun _ => isTimeless_putDocument _ _

theorem isTimeless_post (device text : String) : (notifier.post device text).IsTimeless := by
  refine IsTimeless.stores.bind fun _ => (IsTimeless.modifyStores _).bind fun _ => ?_
  split
  · exact .pure ()
  · exact .ofExcept (.error _)

end Memory

/-! ### Evaluations -/

namespace Evaluator

/-- The calls that an evaluator makes do not depend on the time. -/
structure IsTimeless (e : Evaluator σ) : Prop where
  get : ∀ key, (e.documents.get key).IsTimeless
  put : ∀ key document, (e.documents.put key document).IsTimeless
  update : ∀ device attributes, (e.shadows.update device attributes).IsTimeless
  post : ∀ device text, (e.notifier.post device text).IsTimeless

theorem isTimeless_of_inMemory? {b : Memory.Backing} {settings : Settings.Evaluation}
    {e : Evaluator Memory} (h : inMemory? b settings = some e) : e.IsTimeless := by
  obtain ⟨retention, minCooldown, rfl⟩ := eq_of_inMemory? h
  exact {
    get := fun key => (Memory.isTimeless_getDocument key).within _ _
    put := fun key document => (Memory.isTimeless_putDocument key document).within _ _
    update := fun device attributes => (Memory.isTimeless_update b device attributes).within _ _
    post := Memory.isTimeless_post }

namespace IsTimeless

variable {e : Evaluator σ} (he : e.IsTimeless)

include he

theorem ingest (device : String) (reading : Reading) (now : Instant) :
    (History.ingest e.documents e.retention device reading now).IsTimeless :=
  ((he.get _).bind fun _ => .pure _).bind fun _ => (Action.IsTimeless.inCalendar _).bind fun _ =>
    (he.put _ _).bind fun _ => .pure _

theorem suppresses (device trigger : String) (period : Span) (now : Instant) :
    (Cooldown.suppresses e.documents e.minCooldown device trigger period now).IsTimeless := by
  refine ((he.get _).bind fun _ => .pure _).bind fun _ => ?_
  split
  · exact .pure _
  · exact (he.put _ _).bind fun _ => .pure _

theorem fire (device trigger : String) (certainty : Float) (now : Instant) :
    (Firing.fire e.shadows e.notifier device trigger certainty now).IsTimeless :=
  (he.update _ _).attempt.bind fun _ => (he.post _ _).attempt.bind fun _ => .ofExcept _

theorem conclude (a : Accepted) (v : Verdict) : (e.conclude a v).IsTimeless := by
  cases v with
  | pending | below _ => exact .pure _
  | satisfied certainty =>
    refine ((he.suppresses _ _ _ _).mapFailure _).bind fun _ => ?_
    split
    · exact .pure _
    · exact ((he.fire _ _ _ _).mapFailure _).bind fun _ => .pure _

theorem judge (a : Accepted) : (e.judge a).IsTimeless :=
  ((he.ingest _ _ _).mapFailure _).bind fun _ => (he.conclude _ _).bind fun _ => .pure _

theorem enterTrail (s : Submission) (result : Except EvaluationFailure Outcome)
    (recorded : Instant) : (e.enterTrail s result recorded).IsTimeless := by
  rw [Evaluator.enterTrail]
  split
  · exact ((he.get _).bind fun _ => he.put _ _).attempt.bind fun _ => .ofExcept _
  · exact .ofExcept _

/-- An evaluation does the same at any time. -/
theorem evaluate (s : Submission) (clock : ClockReadings) : (e.evaluate s clock).IsTimeless :=
  ((Action.IsTimeless.ofExcept _).bind fun _ => he.judge _).attempt.bind fun _ =>
    he.enterTrail _ _ _

end IsTimeless

end Evaluator

end TriggerWatch
