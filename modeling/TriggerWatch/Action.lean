/-!
# Actions

What the service does to the outside is an action: a step on a session that ends with a value or
stops early. A session holds the stores and a clock that counts the time spent waiting, so that
deadlines are part of the meaning of an action and no real time passes.

## Main definitions

- `Stop` — why an action stops early
- `Session` — the stores, the time spent and the deadline in force
- `Action` — steps on a session
- `Action.wait` — let time pass, or stop at the deadline
- `Action.within` — run an action under a deadline
- `Action.attempt` — turn a failure into a value
- `Action.focus` — act on a part of the stores

## Design notes

A call that would answer only after the deadline, or never, stops with `Stop.unanswered`. The action
that set the deadline turns that into a failure and moves the clock to the deadline. Stops of the
other kinds pass through `attempt`: an action cannot go on after them.
-/

namespace TriggerWatch

/-- Why an action stops early. -/
inductive Stop (ε : Type) where
  /-- A failure with a cause. -/
  | failed (cause : ε)
  /-- A call did not answer before the deadline. -/
  | unanswered
  /-- A point of time outside the calendar was needed. -/
  | outsideCalendar
deriving DecidableEq

/-- The stores and the time of a run. -/
structure Session (σ : Type) where
  stores : σ
  /-- The milliseconds spent waiting so far. -/
  elapsed : Nat
  /-- The time by which the call under way has to answer. -/
  deadline : Option Nat

/-- A step on a session that ends with a value or stops early. -/
abbrev Action (σ ε α : Type) := ExceptT (Stop ε) (StateM (Session σ)) α

namespace Action

variable {σ τ ε ε' α : Type}

/-- An action given by what it does to a session. -/
def ofStep (step : Session σ → Except (Stop ε) α × Session σ) : Action σ ε α := step

/-- What an action does to a session. -/
def onSession (a : Action σ ε α) (s : Session σ) : Except (Stop ε) α × Session σ := a s

/-- Stop with a cause. -/
def fail (cause : ε) : Action σ ε α := throw (.failed cause)

/-- The result of a check; a flaw stops the action. -/
def ofExcept : Except ε α → Action σ ε α
  | .ok a => pure a
  | .error e => fail e

/-- A point of time that may lie outside the calendar. -/
def inCalendar : Option α → Action σ ε α
  | some a => pure a
  | none => throw .outsideCalendar

/-- The stores. -/
def stores : Action σ ε σ := ofStep fun s => (.ok s.stores, s)

/-- Change the stores. -/
def modifyStores (f : σ → σ) : Action σ ε Unit :=
  ofStep fun s => (.ok (), { s with stores := f s.stores })

/-- Let time pass. Where that leads past the deadline, the action stops. -/
def wait (milliseconds : Nat) : Action σ ε Unit := ofStep fun s =>
  match s.deadline with
  | none => (.ok (), { s with elapsed := s.elapsed + milliseconds })
  | some due =>
    if s.elapsed + milliseconds ≤ due then
      (.ok (), { s with elapsed := s.elapsed + milliseconds })
    else (.error .unanswered, s)

/-- Run an action under a deadline. An action that has not answered by then fails at that time. -/
def within (milliseconds : Nat) (late : ε) (a : Action σ ε α) : Action σ ε α := ofStep fun s =>
  let due := s.elapsed + milliseconds
  match a.onSession { s with deadline := some due } with
  | (.error .unanswered, t) => (.error (.failed late), { t with elapsed := due, deadline := s.deadline })
  | (result, t) => (result, { t with deadline := s.deadline })

/-- Turn a failure into a value. -/
def attempt (a : Action σ ε α) : Action σ ε' (Except ε α) := ofStep fun s =>
  match a.onSession s with
  | (.ok x, t) => (.ok (.ok x), t)
  | (.error (.failed cause), t) => (.ok (.error cause), t)
  | (.error .unanswered, t) => (.error .unanswered, t)
  | (.error .outsideCalendar, t) => (.error .outsideCalendar, t)

/-- Name the cause of a failure anew. -/
def mapFailure (f : ε → ε') (a : Action σ ε α) : Action σ ε' α := ofStep fun s =>
  match a.onSession s with
  | (.ok x, t) => (.ok x, t)
  | (.error (.failed cause), t) => (.error (.failed (f cause)), t)
  | (.error .unanswered, t) => (.error .unanswered, t)
  | (.error .outsideCalendar, t) => (.error .outsideCalendar, t)

/-- Act on a part of the stores. -/
def focus (get : σ → τ) (set : τ → σ → σ) (a : Action τ ε α) : Action σ ε α := ofStep fun s =>
  match a.onSession { s with stores := get s.stores } with
  | (result, t) => (result, { t with stores := set t.stores s.stores })

end Action

end TriggerWatch
