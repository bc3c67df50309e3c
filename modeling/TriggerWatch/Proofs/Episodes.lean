import TriggerWatch.Proofs.Course

/-!
# Runs of evaluations

A run takes up requests one after the other, each on the session that the one before it left.
Nothing is assumed of the requests: their devices, rules and times may come in any order, and every
store call can meet a fault.

## Main definitions

- `Request`, `Episode` — an evaluation to be made, and one that was made
- `Evaluator.episodes` — the episodes of a run
- `Episode.kind?`, `Episode.stop?` — the kind of the outcome of an episode, or why it has none
- `Episode.changes` — the changes that an episode made of the stores

## Main statements

- `Evaluator.mem_episodes` — an episode is an evaluation of its request
- `Evaluator.episodes_invariant` — what every evaluation preserves holds throughout a run
-/

namespace TriggerWatch

/-- An evaluation to be made. -/
structure Request where
  submission : Submission
  clock : ClockReadings

/-- The time at which the rule of a request is judged, if it is readable. -/
def Request.time (c : Request) : Except Flaw Instant := c.submission.time c.clock.received

/-- An evaluation that was made. -/
structure Episode where
  /-- The request it answers. -/
  request : Request
  /-- The session before it. -/
  before : Session Memory
  /-- What it came to. -/
  result : Except (Stop EvaluationFailure) Outcome
  /-- The session after it. -/
  after : Session Memory

/-- The changes of the stores that took effect in an episode. -/
def Episode.changes (ep : Episode) : List Memory.Change :=
  ep.after.stores.changes.drop ep.before.stores.changes.length

def Episode.kind? (ep : Episode) : Option Outcome.Kind :=
  match ep.result with
  | .ok outcome => some outcome.kind
  | .error _ => none

theorem Episode.kind?_eq_some_iff {ep : Episode} {kind : Outcome.Kind} :
    ep.kind? = some kind ↔ ∃ outcome, ep.result = .ok outcome ∧ outcome.kind = kind := by
  rw [kind?]
  cases ep.result <;> simp

def Episode.stop? (ep : Episode) : Option (Stop EvaluationFailure) :=
  match ep.result with
  | .ok _ => none
  | .error stop => some stop

namespace Evaluator

variable {e : Evaluator Memory}

/-- The episode of a request on a session. -/
def episode (e : Evaluator Memory) (session : Session Memory) (request : Request) : Episode :=
  let ran := (e.evaluate request.submission request.clock).onSession session
  { request, before := session, result := ran.1, after := ran.2 }

def episodes (e : Evaluator Memory) (session : Session Memory) : List Request → List Episode
  | [] => []
  | request :: rest =>
    e.episode session request :: e.episodes (e.episode session request).after rest

/-- An episode is an evaluation of its request. -/
theorem mem_episodes {session : Session Memory} {requests : List Request} {ep : Episode}
    (h : ep ∈ e.episodes session requests) :
    ep.request ∈ requests ∧ ep = e.episode ep.before ep.request := by
  induction requests generalizing session with
  | nil => cases h
  | cons request rest ih =>
    rcases List.mem_cons.mp h with rfl | h
    · exact ⟨List.mem_cons_self, rfl⟩
    · exact ⟨List.mem_cons_of_mem _ (ih h).1, (ih h).2⟩

/-- What every evaluation of a run preserves holds throughout the run. -/
theorem episodes_invariant {P : Memory → Prop} {session : Session Memory} {requests : List Request}
    (step : ∀ request ∈ requests, ∀ s : Session Memory,
      P s.stores → P (e.episode s request).after.stores)
    (h : P session.stores) {ep : Episode} (hep : ep ∈ e.episodes session requests) :
    P ep.before.stores := by
  induction requests generalizing session with
  | nil => cases hep
  | cons request rest ih =>
    rcases List.mem_cons.mp hep with rfl | hep
    · exact h
    · exact ih (fun c hc => step c (List.mem_cons_of_mem _ hc))
        (step request List.mem_cons_self session h) hep

end Evaluator

/-- What holds of the value of a computation, if it has one, can be decided by computing it. -/
instance decidableForallOk {ε α : Type} (r : Except ε α) (P : α → Prop) [DecidablePred P] :
    Decidable (∀ x, r = .ok x → P x) :=
  match r with
  | .ok x => decidable_of_iff (P x) ⟨fun h _ he => Except.ok.inj he ▸ h, fun h => h x rfl⟩
  | .error _ => isTrue nofun

/-- The changes noted by an episode are those that made its stores. -/
theorem Episode.changes_eq {b : Memory.Backing} {ep : Episode} {fx : List Memory.Change}
    (h : ep.before.stores.Evolves b fx ep.after.stores) : ep.changes = fx := by
  rw [changes, h.changes_eq, List.drop_left]

theorem Evaluator.episode_evolves {b : Memory.Backing} {e : Evaluator Memory}
    (he : e.IsInMemory b) (session : Session Memory) (request : Request) :
    session.stores.Evolves b (e.episode session request).changes
      (e.episode session request).after.stores := by
  obtain ⟨fx, gx, -, -, ev⟩ := evaluate_course he request.submission request.clock session
  rwa [show (e.episode session request).changes = fx ++ gx from Episode.changes_eq ev]

theorem Evaluator.not_isFaulty_episode {b : Memory.Backing} {e : Evaluator Memory}
    (he : e.IsInMemory b) {session : Session Memory} (hs : ¬ session.stores.IsFaulty)
    (request : Request) : ¬ (e.episode session request).after.stores.IsFaulty := by
  intro h
  exact hs ((episode_evolves he session request).isFaulty_iff.mp h)

/-! ### A sample -/

/-- The evaluator of the standard settings. -/
def Evaluator.standard (b : Memory.Backing) : Evaluator Memory :=
  (inMemory? b .default).get (by cases b <;> decide)

theorem Evaluator.inMemory?_default (b : Memory.Backing) :
    inMemory? b .default = some (standard b) := (Option.some_get _).symm

/-- A session on empty stores whose calls meet the given faults. -/
def Session.fresh (faults : Nat → Option Fault) : Session Memory where
  stores := { Memory.empty with link := { faults, calls := [] } }
  elapsed := 0
  deadline := none

theorem Session.not_isFaulty_fresh : ¬ (fresh fun _ => none).stores.IsFaulty := by
  rintro ⟨_, hn⟩
  exact hn rfl

/-- A reading of 3, with a rule that looks for readings below 4 within a minute. -/
def Request.sample (timestamp : String) : Request where
  submission := {
    device := "boiler"
    attr := "level"
    value := .number 3
    timestamp := some timestamp
    trigger := "low"
    triggerAttr := "level"
    equals := none
    above := none
    below := some 4
    certainty := some 0.5
    period := some 60
    beacon := none }
  clock := { received := .earliest, recorded := .earliest }

/-- A session on empty stores that refuse the ninth call. -/
def Session.refusing : Session Memory :=
  .fresh fun n => if n = 8 then some (.refuse "down") else none

end TriggerWatch
