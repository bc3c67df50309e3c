import TriggerWatch.Evaluation
import TriggerWatch.Proofs.Behavior

/-!
# Acting on a part of the stores

An action on a part of the stores leaves the rest alone, and to act on the part step by step is to
act on it with all steps at once. So an evaluator whose stores are a part of others evaluates there
as it does on its own.

## Main definitions

- `IsPart` — a part of the stores that can be looked at and replaced
- `Notifier.within`, `Evaluator.within` — a notifier and an evaluator on a part of the stores

## Main statements

- `Action.focus_bind` and its like — acting on a part step by step
- `Evaluator.evaluate_within` — an evaluation on a part of the stores
-/

namespace TriggerWatch

variable {σ τ ε ε' α β : Type} {get : σ → τ} {set : τ → σ → σ}

/-- A part of the stores that can be looked at and replaced: what was put there last is found, and
the rest stays. -/
structure IsPart (get : σ → τ) (set : τ → σ → σ) : Prop where
  get_set : ∀ part s, get (set part s) = part
  set_get : ∀ s, set (get s) s = s
  set_set : ∀ part part' s, set part (set part' s) = set part s

/-- The notifier on a part of the stores. -/
def Notifier.within (get : σ → τ) (set : τ → σ → σ) (notifier : Notifier τ) : Notifier σ where
  post device text := (notifier.post device text).focus get set

/-- The evaluator whose stores are a part of others. -/
def Evaluator.within (get : σ → τ) (set : τ → σ → σ) (e : Evaluator τ) : Evaluator σ where
  documents := e.documents.within get set
  shadows := e.shadows.within get set
  notifier := e.notifier.within get set
  retention := e.retention
  minCooldown := e.minCooldown
  trailCapacity := e.trailCapacity
  beacons := e.beacons

/-! ### Steps on a part -/

namespace Action

/-- What an action on a part of the stores does. -/
theorem onSession_focus (a : Action τ ε α) (s : Session σ) :
    (a.focus get set).onSession s =
      ((a.onSession { s with stores := get s.stores }).1,
        { (a.onSession { s with stores := get s.stores }).2 with
          stores := set (a.onSession { s with stores := get s.stores }).2.stores s.stores }) := rfl

theorem focus_ofExcept (h : IsPart get set) (r : Except ε α) :
    (ofExcept r).focus get set = ofExcept r := by
  funext s
  cases r <;> exact congrArg (Prod.mk _) (congrArg (Session.mk · _ _) (h.set_get s.stores))

theorem focus_pure (h : IsPart get set) (x : α) :
    (pure x : Action τ ε α).focus get set = pure x := focus_ofExcept h (.ok x)

theorem focus_inCalendar (h : IsPart get set) (x : Option α) :
    (inCalendar x : Action τ ε α).focus get set = inCalendar x := by
  funext s
  cases x <;> exact congrArg (Prod.mk _) (congrArg (Session.mk · _ _) (h.set_get s.stores))

theorem focus_wait (h : IsPart get set) (milliseconds : Nat) :
    (wait milliseconds : Action τ ε Unit).focus get set = wait milliseconds := by
  funext ⟨stores, elapsed, deadline⟩
  change ((wait milliseconds : Action τ ε Unit).focus get set).onSession _ =
    (wait milliseconds : Action σ ε Unit).onSession _
  rw [onSession_focus]
  simp only [wait, onSession, ofStep]
  cases deadline with
  | none => exact congrArg (Prod.mk _) (congrArg (Session.mk · _ _) (h.set_get stores))
  | some due =>
    simp only
    split <;> simp only [h.set_get]

theorem focus_bind (h : IsPart get set) (a : Action τ ε α) (f : α → Action τ ε β) :
    (a >>= f).focus get set = a.focus get set >>= fun x => (f x).focus get set := by
  funext s
  change ((a >>= f).focus get set).onSession s =
    (a.focus get set >>= fun x => (f x).focus get set).onSession s
  rcases hran : a.onSession { s with stores := get s.stores } with ⟨stop | x, t⟩
  · have hfirst : (a.focus get set).onSession s =
        (.error stop, { t with stores := set t.stores s.stores }) := by
      rw [onSession_focus, hran]
    rw [onSession_focus, onSession_bind_error hran, onSession_bind_error hfirst]
  · have hfirst : (a.focus get set).onSession s =
        (.ok x, { t with stores := set t.stores s.stores }) := by
      rw [onSession_focus, hran]
    -- the second action finds the part as the first one left it
    rw [onSession_focus, onSession_bind_ok hran, onSession_bind_ok hfirst, onSession_focus,
      h.get_set]
    simp only [h.set_set]

theorem focus_attempt (a : Action τ ε α) :
    (a.attempt : Action τ ε' (Except ε α)).focus get set = (a.focus get set).attempt := by
  funext s
  change ((a.attempt : Action τ ε' _).focus get set).onSession s =
    ((a.focus get set).attempt : Action σ ε' _).onSession s
  rw [onSession_focus, onSession_attempt, onSession_attempt, onSession_focus]

theorem focus_mapFailure (f : ε → ε') (a : Action τ ε α) :
    (a.mapFailure f).focus get set = (a.focus get set).mapFailure f := by
  funext s
  change ((a.mapFailure f).focus get set).onSession s =
    ((a.focus get set).mapFailure f).onSession s
  rw [onSession_focus, onSession_mapFailure, onSession_mapFailure, onSession_focus]

end Action

/-! ### Evaluations on a part -/

variable (h : IsPart get set)

include h

section

variable (docs : Documents τ)

theorem History.ingest_within (retention : Span) (device : String) (reading : Reading)
    (now : Instant) : ingest (docs.within get set) retention device reading now =
      (ingest docs retention device reading now).focus get set := by
  simp only [ingest, load, save, Documents.within, Action.focus_bind h, Action.focus_pure h,
    Action.focus_inCalendar h]

theorem Cooldown.suppresses_within (floor : Span) (device trigger : String) (period : Span)
    (now : Instant) : suppresses (docs.within get set) floor device trigger period now =
      (suppresses docs floor device trigger period now).focus get set := by
  simp only [suppresses, lastFire, Documents.within, Action.focus_bind h, Action.focus_pure h,
    apply_ite (Action.focus get set)]

theorem Trail.record_within (capacity : Nat) (device trigger : String) (entry : Entry) :
    record (docs.within get set) capacity device trigger entry =
      (record docs capacity device trigger entry).focus get set := by
  simp only [record, Documents.within, Action.focus_bind h]

theorem Firing.fire_within (shadows : Shadows τ) (notifier : Notifier τ) (device trigger : String)
    (certainty : Float) (now : Instant) :
    fire (shadows.within get set) (notifier.within get set) device trigger certainty now =
      (fire shadows notifier device trigger certainty now).focus get set := by
  simp only [fire, Shadows.within, Notifier.within, Action.focus_bind h, Action.focus_attempt,
    Action.focus_ofExcept h]

end

namespace Evaluator

variable (e : Evaluator τ)

theorem settle_within (a : Accepted) (certainty : Float) :
    (e.within get set).settle a certainty = (e.settle a certainty).focus get set := by
  simp only [settle, inStep, within, Cooldown.suppresses_within h, Firing.fire_within h,
    Action.focus_bind h, Action.focus_pure h, Action.focus_mapFailure,
    apply_ite (Action.focus get set)]

theorem conclude_within (a : Accepted) (v : Verdict) :
    (e.within get set).conclude a v = (e.conclude a v).focus get set := by
  cases v with
  | pending | below _ => exact (Action.focus_pure h _).symm
  | satisfied certainty => exact settle_within h e a certainty

theorem judge_within (a : Accepted) :
    (e.within get set).judge a = (e.judge a).focus get set := by
  have hingest : History.ingest (e.within get set).documents (e.within get set).retention =
      fun device reading now =>
        (History.ingest e.documents e.retention device reading now).focus get set := by
    funext device reading now
    exact History.ingest_within h e.documents e.retention device reading now
  simp only [judge, inStep, hingest, conclude_within h, Action.focus_bind h, Action.focus_pure h,
    Action.focus_mapFailure]

theorem run_within (s : Submission) (received : Instant) :
    (e.within get set).run s received = (e.run s received).focus get set := by
  have haccept : (e.within get set).accept s received = e.accept s received := rfl
  simp only [run, haccept, judge_within h, Action.focus_bind h, Action.focus_ofExcept h]

theorem enterTrail_within (s : Submission) (result : Except EvaluationFailure Outcome)
    (recorded : Instant) : (e.within get set).enterTrail s result recorded =
      (e.enterTrail s result recorded).focus get set := by
  simp only [enterTrail, within, Trail.record_within h, Action.focus_bind h,
    Action.focus_attempt, Action.focus_ofExcept h, apply_ite (Action.focus get set)]

/-- An evaluation whose stores are a part of others is an evaluation on this part. -/
theorem evaluate_within (s : Submission) (clock : ClockReadings) :
    (e.within get set).evaluate s clock = (e.evaluate s clock).focus get set := by
  simp only [evaluate, run_within h, enterTrail_within h, Action.focus_bind h,
    Action.focus_attempt]

end Evaluator

end TriggerWatch
