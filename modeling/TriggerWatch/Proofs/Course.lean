import TriggerWatch.Evaluation
import TriggerWatch.Proofs.Behavior

/-!
# The course of an evaluation

For each step of an evaluation: with what results it can end on given stores, and with which changes
of the stores. A failure of a store call is possible only if calls can meet faults. Everything else
is determined by what the stores hold before the evaluation, for its steps read documents of
different kinds, and what one step writes no later one reads.

## Main definitions

- `Evaluator.inMemory?` — the evaluator of some settings on stores in memory
- `Evaluator.IsInMemory` — what is used of it
- `History.Ingests`, `Cooldown.Checks`, `Firing.Fires` — the ends of the steps
- `Evaluator.Settles`, `Evaluator.Judges`, `Evaluator.Enters` — the ends of their compositions

## Main statements

- `Evaluator.judge_behaves`, `Evaluator.enterTrail_behaves` — every run ends in one of these ways
- `Evaluator.evaluate_course` — a whole evaluation, both parts told from the stores before it
-/

namespace TriggerWatch

open Memory (Backing Change Answers)

variable {b : Backing}

/-! ### Stores in memory -/

structure Documents.IsInMemory (b : Backing) (docs : Documents Memory) : Prop where
  get : ∀ key, Behaves b (docs.get key) (Answers (·.document? key) fun _ => [])
  put : ∀ key document,
    Behaves b (docs.put key document) (Answers (fun _ => ()) fun _ => [.put key document])

/-- The stores of an evaluator are those in memory. -/
structure Evaluator.IsInMemory (b : Backing) (e : Evaluator Memory) : Prop where
  documents : e.documents.IsInMemory b
  update : ∀ device attributes, Behaves b (e.shadows.update device attributes)
    (Answers (fun _ => ()) fun m => m.updateChanges b device attributes)
  post : ∀ device text, Behaves b (e.notifier.post device text) fun _ r fx =>
    fx = [.post device text] ∧ (r = .ok () ∨ ∃ cause, r = .error (.failed cause))

/-- The evaluator of some settings on stores in memory. -/
def Evaluator.inMemory? (b : Backing) (settings : Settings.Evaluation) :
    Option (Evaluator Memory) :=
  ofSettings? Memory.documentStore (Memory.shadows b) Memory.notifier settings

theorem Evaluator.eq_of_inMemory? {settings : Settings.Evaluation} {e : Evaluator Memory}
    (h : inMemory? b settings = some e) : ∃ retention minCooldown, e = {
      documents := Memory.documentStore.timed settings.storeTimeout
      shadows := (Memory.shadows b).timed settings.storeTimeout
      notifier := Memory.notifier
      retention
      minCooldown
      trailCapacity := settings.trailCapacity
      beacons := settings.beacons } := by
  simp only [inMemory?, ofSettings?, Option.bind_eq_bind, Option.bind_eq_some_iff] at h
  obtain ⟨retention, _, minCooldown, _, he⟩ := h
  exact ⟨retention, minCooldown, (Option.some.inj he).symm⟩

theorem Evaluator.isInMemory_of_inMemory? {settings : Settings.Evaluation} {e : Evaluator Memory}
    (h : inMemory? b settings = some e) : e.IsInMemory b := by
  obtain ⟨retention, minCooldown, rfl⟩ := eq_of_inMemory? h
  exact {
    documents := {
      get := fun key => Memory.Responds.timed (Memory.getDocument_responds key) _ _
      put := fun key document =>
        Memory.Responds.timed (Memory.putDocument_responds key document) _ _ }
    update := fun device attributes =>
      Memory.Responds.timed (Memory.update_responds device attributes) _ _
    post := Memory.post_behaves }

/-! ### The history -/

namespace History

/-- The records of a history once a reading has joined it. -/
def kept (horizon : Instant) (document : Option Json) (reading : Reading) : List Json :=
  keepRecent horizon (recordsOf document ++ [reading.toJson])

/-- The ends of adding a reading to the history of a device. -/
inductive Ingests (retention : Span) (device : String) (reading : Reading) (now : Instant) :
    Memory.Ending StoreFailure (List Json)
  | failed {m : Memory} (cause : StoreFailure) (h : m.IsFaulty) :
    Ingests retention device reading now m (.error (.failed cause)) []
  | offCalendar {m : Memory} (h : now.sub? retention = none) :
    Ingests retention device reading now m (.error .outsideCalendar) []
  | kept {m : Memory} {horizon : Instant} (h : now.sub? retention = some horizon) :
    Ingests retention device reading now m
      (.ok (History.kept horizon (m.document? (Key.history device)) reading))
      [.put (Key.history device)
        (.array (History.kept horizon (m.document? (Key.history device)) reading))]

variable {docs : Documents Memory}

theorem load_behaves (hd : docs.IsInMemory b) (device : String) :
    Behaves b (load docs device)
      (Answers (fun m => recordsOf (m.document? (Key.history device))) fun _ => []) :=
  Answers.map recordsOf (hd.get _)

theorem ingest_behaves (hd : docs.IsInMemory b) (retention : Span) (device : String)
    (reading : Reading) (now : Instant) :
    Behaves b (ingest docs retention device reading now)
      (Ingests retention device reading now) := by
  refine (Behaves.bind (load_behaves hd device) fun records =>
    Behaves.bind (Behaves.inCalendar (now.sub? retention)) fun horizon =>
      Answers.map (fun _ => keepRecent horizon (records ++ [reading.toJson]))
        (hd.put (Key.history device) _)).mono fun m r fx h => ?_
  rcases h with ⟨⟨⟩⟩ | ⟨⟨⟩, he, ⟨hc⟩ | ⟨hc, he', h⟩⟩
  · next hm => exact .failed _ hm
  · obtain ⟨⟨_, _, ⟨⟩⟩ | ⟨hs, ⟨⟩⟩, rfl⟩ := hc
    exact .offCalendar hs
  · obtain ⟨⟨horizon, hs, ⟨⟩⟩ | ⟨_, ⟨⟩⟩, rfl⟩ := hc
    cases h with
    | failed cause hm => exact .failed cause (he.isFaulty_iff.mp (he'.isFaulty_iff.mp hm))
    | answered => exact .kept hs

end History

/-! ### The last fire -/

/-- The last fire of a trigger on record. -/
def Memory.lastFire? (m : Memory) (device trigger : String) : Option Instant :=
  (m.document? (Key.cooldown device trigger)).bind Cooldown.fire?

theorem Memory.Evolves.lastFire?_eq {m m' : Memory} {fx : List Change} (h : m.Evolves b fx m')
    {device trigger : String}
    (hput : ∀ document, .put (Key.cooldown device trigger) document ∉ fx) :
    m'.lastFire? device trigger = m.lastFire? device trigger := by
  rw [lastFire?, lastFire?, h.document?_eq hput]

namespace Cooldown

/-- Whether the last fire of a trigger on record is too recent for another one at `now`. -/
def Holds (floor : Span) (device trigger : String) (period : Span) (now : Instant) (m : Memory) :
    Prop :=
  ∃ last, m.lastFire? device trigger = some last ∧ isCooling (max period floor) last now

/-- The ends of checking a trigger. -/
inductive Checks (floor : Span) (device trigger : String) (period : Span) (now : Instant) :
    Memory.Ending StoreFailure Bool
  | failed {m : Memory} (cause : StoreFailure) (h : m.IsFaulty) :
    Checks floor device trigger period now m (.error (.failed cause)) []
  | cooling {m : Memory} (h : Holds floor device trigger period now m) :
    Checks floor device trigger period now m (.ok true) []
  | passed {m : Memory} (h : ¬ Holds floor device trigger period now m) :
    Checks floor device trigger period now m (.ok false)
      [.put (Key.cooldown device trigger) (document now)]

variable {docs : Documents Memory}

theorem lastFire_behaves (hd : docs.IsInMemory b) (device trigger : String) :
    Behaves b (lastFire docs device trigger)
      (Answers (·.lastFire? device trigger) fun _ => []) :=
  Answers.map (fun record : Option Json => record.bind fire?) (hd.get _)

theorem suppresses_behaves (hd : docs.IsInMemory b) (floor : Span) (device trigger : String)
    (period : Span) (now : Instant) :
    Behaves b (suppresses docs floor device trigger period now)
      (Checks floor device trigger period now) := by
  have pass (last : Option Instant) :
      Behaves b (if last.any fun last => isCooling (max period floor) last now then pure true
        else do
          docs.put (Key.cooldown device trigger) (document now)
          pure false) fun m r fx =>
        if last.any fun last => isCooling (max period floor) last now then r = .ok true ∧ fx = []
        else Answers (fun _ => false) (fun _ => [.put (Key.cooldown device trigger) (document now)])
          m r fx := by
    split
    · exact Behaves.pure true
    · exact Answers.map (fun _ => false) (hd.put _ _)
  refine (Behaves.bind (lastFire_behaves hd device trigger) pass).mono fun m r fx h => ?_
  rcases h with ⟨⟨⟩⟩ | ⟨⟨⟩, he, h⟩
  · next hm => exact .failed _ hm
  · split at h
    · next hc =>
      obtain ⟨rfl, rfl⟩ := h
      exact .cooling ((Option.any_eq_true _ _).mp hc)
    · next hc =>
      cases h with
      | failed cause hm => exact .failed cause (he.isFaulty_iff.mp hm)
      | answered => exact .passed fun hh => hc ((Option.any_eq_true _ _).mpr hh)

end Cooldown

/-! ### Firing -/

namespace Firing

/-- The ends of firing a trigger. -/
inductive Fires (b : Backing) (device trigger : String) (certainty : Float) (now : Instant) :
    Memory.Ending StoreFailure Unit
  | failed {m : Memory} (cause : StoreFailure) (h : m.IsFaulty) :
    Fires b device trigger certainty now m (.error (.failed cause))
      [.post device (announcement trigger certainty false)]
  | written {m : Memory} :
    Fires b device trigger certainty now m (.ok ())
      (m.updateChanges b device (attributes trigger certainty now) ++
        [.post device (announcement trigger certainty true)])

/-- Posting a message changes nothing else, and whether it is accepted does not matter. -/
theorem announce_behaves {notifier : Notifier Memory} {device text : String}
    (hp : Behaves b (notifier.post device text) fun _ r fx =>
      fx = [.post device text] ∧ (r = .ok () ∨ ∃ cause, r = .error (.failed cause)))
    (result : Except StoreFailure Unit) :
    Behaves b (do
      let _ : Except DeliveryFailure Unit ← Action.attempt (notifier.post device text)
      Action.ofExcept result) fun _ r fx =>
        r = result.mapError .failed ∧ fx = [.post device text] := by
  refine (Behaves.bind (Behaves.attempt hp) fun _ => Behaves.ofExcept result).mono
    fun m r fx h => ?_
  rcases h with ⟨_, ⟨-, rfl | ⟨_, rfl⟩⟩, ⟨⟩⟩ | ⟨⟨_, ⟨rfl, -⟩, -⟩, -, rfl, rfl⟩
  exact ⟨rfl, rfl⟩

theorem fire_behaves {e : Evaluator Memory} (he : e.IsInMemory b) (device trigger : String)
    (certainty : Float) (now : Instant) :
    Behaves b (fire e.shadows e.notifier device trigger certainty now)
      (Fires b device trigger certainty now) := by
  refine (Behaves.bind (Behaves.attempt (he.update device (attributes trigger certainty now)))
    fun result => announce_behaves (he.post device _) result).mono fun m r fx h => ?_
  rcases h with ⟨_, ⟨⟩, ⟨⟩⟩ | ⟨⟨_, ⟨⟩, ⟨⟩⟩, -, rfl, rfl⟩
  · exact .written
  · exact .failed _ ‹_›

end Firing

/-! ### From the history to the outcome -/

namespace Accepted

variable (a : Accepted) (horizon : Instant) (m : Memory)

/-- The records of the device once the reading has joined them. -/
def records : List Json :=
  History.kept horizon (m.document? (Key.history a.reading.device)) a.reading

/-- The tally of the rule on these records. -/
def tally : Tally := a.rule.tally (Reading.ofRecords (a.records horizon m)) a.now

def verdict : Verdict := a.rule.verdict (a.tally horizon m)

def outcome (kind : Outcome.Kind) : Outcome := Outcome.of kind a.rule.trigger (a.tally horizon m)

/-- Whether the trigger of the rule is cooling down. -/
def IsHeld (floor : Span) : Prop :=
  Cooldown.Holds floor a.reading.device a.rule.trigger a.rule.period a.now m

def attributes (certainty : Float) : Dict Json :=
  Firing.attributes a.rule.trigger certainty a.now

/-- The records replace the history. -/
def putHistory : Change :=
  .put (Key.history a.reading.device) (.array (a.records horizon m))

/-- The time of the reading replaces the last fire. -/
def putCooldown : Change :=
  .put (Key.cooldown a.reading.device a.rule.trigger) (Cooldown.document a.now)

def announce (certainty : Float) (written : Bool) : Change :=
  .post a.reading.device (Firing.announcement a.rule.trigger certainty written)

theorem isHeld_iff {a : Accepted} {m m' : Memory} {fx : List Change} (floor : Span)
    (h : m.Evolves b fx m')
    (hput : ∀ document, .put (Key.cooldown a.reading.device a.rule.trigger) document ∉ fx) :
    a.IsHeld m' floor ↔ a.IsHeld m floor := by
  rw [IsHeld, IsHeld, Cooldown.Holds, Cooldown.Holds, h.lastFire?_eq hput]

end Accepted

namespace Evaluator

variable {e : Evaluator Memory}

/-- The ends of an accepted submission. -/
inductive Judges (b : Backing) (e : Evaluator Memory) (a : Accepted) :
    Memory.Ending EvaluationFailure Outcome
  | historyFailed {m : Memory} (cause : StoreFailure) (hm : m.IsFaulty) :
    Judges b e a m (.error (.failed (.storeUnavailable .history cause))) []
  | offCalendar {m : Memory} (h : a.now.sub? e.retention = none) :
    Judges b e a m (.error .outsideCalendar) []
  | pending {m : Memory} {horizon : Instant} (h : a.now.sub? e.retention = some horizon)
    (hv : a.verdict horizon m = .pending) :
    Judges b e a m (.ok (a.outcome horizon m .pending)) [a.putHistory horizon m]
  | below {m : Memory} {horizon : Instant} {certainty : Option Float}
    (h : a.now.sub? e.retention = some horizon) (hv : a.verdict horizon m = .below certainty) :
    Judges b e a m (.ok (a.outcome horizon m .belowThreshold)) [a.putHistory horizon m]
  | cooldownFailed {m : Memory} {horizon : Instant} {certainty : Float} (cause : StoreFailure)
    (hm : m.IsFaulty) (h : a.now.sub? e.retention = some horizon)
    (hv : a.verdict horizon m = .satisfied certainty) :
    Judges b e a m (.error (.failed (.storeUnavailable .cooldown cause))) [a.putHistory horizon m]
  | suppressed {m : Memory} {horizon : Instant} {certainty : Float}
    (h : a.now.sub? e.retention = some horizon) (hv : a.verdict horizon m = .satisfied certainty)
    (hc : a.IsHeld m e.minCooldown) :
    Judges b e a m (.ok (a.outcome horizon m .suppressed)) [a.putHistory horizon m]
  | stateFailed {m : Memory} {horizon : Instant} {certainty : Float} (cause : StoreFailure)
    (hm : m.IsFaulty) (h : a.now.sub? e.retention = some horizon)
    (hv : a.verdict horizon m = .satisfied certainty) (hc : ¬ a.IsHeld m e.minCooldown) :
    Judges b e a m (.error (.failed (.storeUnavailable .state cause)))
      [a.putHistory horizon m, a.putCooldown, a.announce certainty false]
  | fired {m : Memory} {horizon : Instant} {certainty : Float}
    (h : a.now.sub? e.retention = some horizon) (hv : a.verdict horizon m = .satisfied certainty)
    (hc : ¬ a.IsHeld m e.minCooldown) :
    Judges b e a m (.ok (a.outcome horizon m .fired))
      (a.putHistory horizon m :: a.putCooldown ::
        (m.updateChanges b a.reading.device (a.attributes certainty) ++
          [a.announce certainty true]))

/-- The ends of a satisfied rule. -/
inductive Settles (b : Backing) (e : Evaluator Memory) (a : Accepted) (certainty : Float) :
    Memory.Ending EvaluationFailure Outcome.Kind
  | cooldownFailed {m : Memory} (cause : StoreFailure) (hm : m.IsFaulty) :
    Settles b e a certainty m (.error (.failed (.storeUnavailable .cooldown cause))) []
  | suppressed {m : Memory} (hc : a.IsHeld m e.minCooldown) :
    Settles b e a certainty m (.ok .suppressed) []
  | stateFailed {m : Memory} (cause : StoreFailure) (hm : m.IsFaulty)
    (hc : ¬ a.IsHeld m e.minCooldown) :
    Settles b e a certainty m (.error (.failed (.storeUnavailable .state cause)))
      [a.putCooldown, a.announce certainty false]
  | fired {m : Memory} (hc : ¬ a.IsHeld m e.minCooldown) :
    Settles b e a certainty m (.ok .fired)
      (a.putCooldown :: (m.updateChanges b a.reading.device (a.attributes certainty) ++
        [a.announce certainty true]))

theorem inStep_behaves {α : Type} {x : Action Memory StoreFailure α}
    {P : Memory.Ending StoreFailure α} (step : Step) (hx : Behaves b x P) :
    Behaves b (inStep step x) fun m r fx =>
      ∃ r', P m r' fx ∧ r = Action.renamed (.storeUnavailable step) r' :=
  Behaves.mapFailure _ hx

theorem settle_behaves (he : e.IsInMemory b) (a : Accepted) (certainty : Float) :
    Behaves b (e.settle a certainty) (Settles b e a certainty) := by
  have next (suppressed : Bool) :
      Behaves b (if suppressed then pure .suppressed else do
        inStep .state
          (Firing.fire e.shadows e.notifier a.reading.device a.rule.trigger certainty a.now)
        pure .fired) fun m r fx =>
        if suppressed then r = .ok Outcome.Kind.suppressed ∧ fx = []
        else (∃ cause, m.IsFaulty ∧ r = .error (.failed (.storeUnavailable .state cause)) ∧
            fx = [a.announce certainty false]) ∨
          (r = .ok .fired ∧ fx = m.updateChanges b a.reading.device (a.attributes certainty) ++
            [a.announce certainty true]) := by
    split
    · exact Behaves.pure _
    · refine (Behaves.bind (inStep_behaves _ (Firing.fire_behaves he _ _ _ _)) fun _ =>
        Behaves.pure _).mono fun m r fx h => ?_
      rcases h with ⟨_, ⟨⟩, ⟨⟩⟩ | ⟨⟨_, ⟨⟩, ⟨⟩⟩, _, rfl, rfl⟩
      · exact .inl ⟨_, ‹_›, rfl, rfl⟩
      · exact .inr ⟨rfl, List.append_nil _⟩
  refine (Behaves.bind (inStep_behaves _ (Cooldown.suppresses_behaves he.documents _ _ _ _ _))
    next).mono fun m r fx h => ?_
  rcases h with ⟨_, ⟨⟩, ⟨⟩⟩ | ⟨⟨_, ⟨⟩, ⟨⟩⟩, ev, h⟩
  · exact .cooldownFailed _ ‹_›
  · obtain ⟨rfl, rfl⟩ := h
    exact .suppressed ‹_›
  · rcases h with ⟨cause, hm, rfl, rfl⟩ | ⟨rfl, rfl⟩
    · exact .stateFailed cause (ev.isFaulty_iff.mp hm) ‹_›
    · rw [ev.updateChanges_eq (by simp [Key.ne_of_kindLetter_ne])]
      exact .fired ‹_›

def Concludes (b : Backing) (e : Evaluator Memory) (a : Accepted) :
    Verdict → Memory.Ending EvaluationFailure Outcome.Kind
  | .pending => fun _ r fx => r = .ok .pending ∧ fx = []
  | .below _ => fun _ r fx => r = .ok .belowThreshold ∧ fx = []
  | .satisfied certainty => Settles b e a certainty

theorem conclude_behaves (he : e.IsInMemory b) (a : Accepted) (v : Verdict) :
    Behaves b (e.conclude a v) (Concludes b e a v) := by
  cases v with
  | pending => exact Behaves.pure _
  | below certainty => exact Behaves.pure _
  | satisfied certainty => exact settle_behaves he a certainty

/-- What a verdict comes to once the history is written is one of the ends of the submission. -/
theorem Judges.of_concludes {a : Accepted} {m m' : Memory} {horizon : Instant} {gx : List Change}
    {r : Except (Stop EvaluationFailure) Outcome.Kind} (hs : a.now.sub? e.retention = some horizon)
    (ev : m.Evolves b [a.putHistory horizon m] m')
    (h : Concludes b e a (a.verdict horizon m) m' r gx) :
    Judges b e a m (r.map (a.outcome horizon m)) (a.putHistory horizon m :: gx) := by
  -- the history is no record of a fire, so the check is settled before it is written
  have hheld : a.IsHeld m' e.minCooldown ↔ a.IsHeld m e.minCooldown :=
    Accepted.isHeld_iff _ ev (by simp [Accepted.putHistory, Key.ne_of_kindLetter_ne])
  cases hv : a.verdict horizon m with
  | pending =>
    obtain ⟨rfl, rfl⟩ : r = .ok .pending ∧ gx = [] := by rwa [hv] at h
    exact .pending hs hv
  | below certainty =>
    obtain ⟨rfl, rfl⟩ : r = .ok .belowThreshold ∧ gx = [] := by rwa [hv] at h
    exact .below hs hv
  | satisfied certainty =>
    have h : Settles b e a certainty m' r gx := by rwa [hv] at h
    cases h with
    | cooldownFailed cause hm => exact .cooldownFailed cause (ev.isFaulty_iff.mp hm) hs hv
    | suppressed hc => exact .suppressed hs hv (hheld.mp hc)
    | stateFailed cause hm hc =>
      exact .stateFailed cause (ev.isFaulty_iff.mp hm) hs hv (mt hheld.mpr hc)
    | fired hc =>
      rw [ev.updateChanges_eq (by simp [Accepted.putHistory, Key.ne_of_kindLetter_ne])]
      exact .fired hs hv (mt hheld.mpr hc)

theorem judge_behaves (he : e.IsInMemory b) (a : Accepted) :
    Behaves b (e.judge a) (Judges b e a) := by
  refine (Behaves.bind (inStep_behaves _ (History.ingest_behaves he.documents _ _ _ _))
    fun records => Behaves.bind (conclude_behaves he a _) fun kind =>
      Behaves.pure (Outcome.of kind a.rule.trigger
        (a.rule.tally (Reading.ofRecords records) a.now))).mono fun m r fx h => ?_
  rcases h with ⟨_, ⟨⟩, ⟨⟩⟩ | ⟨⟨_, ⟨⟩, ⟨⟩⟩, ev, h | ⟨h, _, rfl, rfl⟩⟩
  · exact .historyFailed _ ‹_›
  · exact .offCalendar ‹_›
  · exact Judges.of_concludes ‹_› ev h
  · rw [List.append_nil]
    exact Judges.of_concludes ‹_› ev h

/-! ### The trail -/

/-- The trail of a submission once a result has been entered. -/
def trailWith (e : Evaluator Memory) (s : Submission) (result : Except EvaluationFailure Outcome)
    (recorded : Instant) (m : Memory) : Json :=
  .array (Trail.newest e.trailCapacity
    (Trail.entriesOf (m.document? (Key.trail s.device s.trigger)) ++
      [(entryOf s result recorded).toJson]))

/-- The entry of a result replaces the trail. -/
def putTrail (e : Evaluator Memory) (s : Submission) (result : Except EvaluationFailure Outcome)
    (recorded : Instant) (m : Memory) : Change :=
  .put (Key.trail s.device s.trigger) (e.trailWith s result recorded m)

/-- How an evaluation ends whose steps up to the outcome came to the first result. -/
inductive Enters (e : Evaluator Memory) (s : Submission) (recorded : Instant) :
    Except (Stop EvaluationFailure) Outcome → Memory.Ending EvaluationFailure Outcome
  | offCalendar {m : Memory} :
    Enters e s recorded (.error .outsideCalendar) m (.error .outsideCalendar) []
  | unnamed {m : Memory} {ran : Except (Stop EvaluationFailure) Outcome}
    (h : hasTrail s = false) : Enters e s recorded ran m ran []
  | entered {m : Memory} {outcome : Outcome} (h : hasTrail s = true) :
    Enters e s recorded (.ok outcome) m (.ok outcome) [e.putTrail s (.ok outcome) recorded m]
  | enteredFailure {m : Memory} {failure : EvaluationFailure} (h : hasTrail s = true) :
    Enters e s recorded (.error (.failed failure)) m (.error (.failed failure))
      [e.putTrail s (.error failure) recorded m]
  | missed {m : Memory} {failure : EvaluationFailure} (hm : m.IsFaulty) (h : hasTrail s = true) :
    Enters e s recorded (.error (.failed failure)) m (.error (.failed failure)) []
  | lost {m : Memory} {outcome : Outcome} (cause : StoreFailure) (hm : m.IsFaulty)
    (h : hasTrail s = true) :
    Enters e s recorded (.ok outcome) m (.error (.failed (.storeUnavailable .trail cause))) []

theorem record_behaves {docs : Documents Memory} (hd : docs.IsInMemory b) (capacity : Nat)
    (device trigger : String) (entry : Trail.Entry) :
    Behaves b (Trail.record docs capacity device trigger entry)
      (Answers (fun _ => ()) fun m => [.put (Key.trail device trigger) (.array
        (Trail.newest capacity (Trail.entriesOf (m.document? (Key.trail device trigger)) ++
          [entry.toJson])))]) := by
  refine (Behaves.bind (hd.get _) fun _ => hd.put _ _).mono fun m r fx h => ?_
  rcases h with ⟨⟨⟩⟩ | ⟨⟨⟩, he, ⟨⟩⟩
  · exact .failed _ ‹_›
  · exact Answers.answered (m := m)
  · exact .failed _ (he.isFaulty_iff.mp ‹_›)

theorem enterTrail_behaves (he : e.IsInMemory b) (s : Submission)
    (result : Except EvaluationFailure Outcome) (recorded : Instant) :
    Behaves b (e.enterTrail s result recorded)
      (Enters e s recorded (result.mapError .failed)) := by
  rw [enterTrail]
  split
  · next hs =>
    refine (Behaves.bind (Behaves.attempt (record_behaves he.documents _ _ _ _))
      fun entered => Behaves.ofExcept (answer result entered)).mono fun m r fx h => ?_
    rcases h with ⟨_, ⟨⟩, ⟨⟩⟩ | ⟨⟨_, ⟨⟩, ⟨⟩⟩, _, rfl, rfl⟩
    · cases result with
      | ok outcome => exact .entered hs
      | error failure => exact .enteredFailure hs
    · cases result with
      | ok outcome => exact .lost _ ‹_› hs
      | error failure => exact .missed ‹_› hs
  · next hs =>
    refine (Behaves.ofExcept result).mono fun m r fx h => ?_
    obtain ⟨rfl, rfl⟩ := h
    exact .unnamed (Bool.eq_false_iff.mpr hs)

/-! ### A whole evaluation -/

/-- The ends of the steps up to the outcome. -/
inductive Runs (b : Backing) (e : Evaluator Memory) (s : Submission) (received : Instant) :
    Memory.Ending EvaluationFailure Outcome
  | refused {m : Memory} {failure : EvaluationFailure} (h : e.accept s received = .error failure) :
    Runs b e s received m (.error (.failed failure)) []
  | accepted {m : Memory} {a : Accepted} {r : Except (Stop EvaluationFailure) Outcome}
    {fx : List Change} (h : e.accept s received = .ok a) (hj : Judges b e a m r fx) :
    Runs b e s received m r fx

theorem Runs.judges {s : Submission} {received : Instant} {a : Accepted} {m : Memory}
    {r : Except (Stop EvaluationFailure) Outcome} {fx : List Change}
    (h : Runs b e s received m r fx) (ha : e.accept s received = .ok a) : Judges b e a m r fx := by
  cases h with
  | refused h =>
    rw [ha] at h
    cases h
  | accepted h hj =>
    cases ha.symm.trans h
    exact hj

theorem run_of_refused {s : Submission} {received : Instant} {failure : EvaluationFailure}
    (h : e.accept s received = .error failure) :
    e.run s received = Action.fail failure := by
  rw [run, h]
  rfl

theorem run_of_accepted {s : Submission} {received : Instant} {a : Accepted}
    (h : e.accept s received = .ok a) : e.run s received = e.judge a := by
  rw [run, h]
  rfl

theorem run_behaves (he : e.IsInMemory b) (s : Submission) (received : Instant) :
    Behaves b (e.run s received) (Runs b e s received) := by
  cases ha : e.accept s received with
  | error failure =>
    rw [run_of_refused ha]
    exact Behaves.still _ (fun _ => rfl) fun m => .refused ha
  | ok a =>
    rw [run_of_accepted ha]
    exact (judge_behaves he a).mono fun m r fx h => .accepted ha h

/-- The changes that an accepted submission can make before its result is entered. -/
def Concerns (b : Backing) (a : Accepted) : Change → Prop
  | .put key _ => key = Key.history a.reading.device ∨
    key = Key.cooldown a.reading.device a.rule.trigger ∨
    (b = .documents ∧ key = Key.shadow a.reading.device)
  | .update device _ => device = a.reading.device
  | .post device _ => device = a.reading.device

theorem concerns_updateChanges (a : Accepted) (m : Memory) (attributes : Dict Json) :
    ∀ c ∈ m.updateChanges b a.reading.device attributes, Concerns b a c := by
  cases b <;> simp [Memory.updateChanges, Concerns]

theorem Judges.concerns {a : Accepted} {m : Memory} {r : Except (Stop EvaluationFailure) Outcome}
    {fx : List Change} (h : Judges b e a m r fx) : ∀ c ∈ fx, Concerns b a c := by
  have history (horizon : Instant) : Concerns b a (a.putHistory horizon m) := .inl rfl
  have cooldown : Concerns b a a.putCooldown := .inr (.inl rfl)
  have announced (certainty : Float) (written : Bool) :
      Concerns b a (a.announce certainty written) := rfl
  cases h with
  | fired h hv hc =>
    have updated := concerns_updateChanges (b := b) a m
    simp only [List.forall_mem_cons, List.forall_mem_append]
    exact ⟨history _, cooldown, updated _, announced _ _, by simp⟩
  | _ => simp [history, cooldown, announced]

/-- No trail is written before the result is entered. -/
theorem Runs.put_trail_not_mem {s : Submission} {received : Instant} {m : Memory}
    {r : Except (Stop EvaluationFailure) Outcome} {fx : List Change}
    (h : Runs b e s received m r fx) (device trigger : String) (document : Json) :
    .put (Key.trail device trigger) document ∉ fx := by
  cases h with
  | refused h => simp
  | accepted h hj =>
    intro hmem
    have := hj.concerns _ hmem
    simp [Concerns, Key.ne_of_kindLetter_ne] at this

theorem Enters.earlier {s : Submission} {recorded : Instant} {m m' : Memory} {fx gx : List Change}
    {ran r : Except (Stop EvaluationFailure) Outcome} (h : Enters e s recorded ran m' r gx)
    (ev : m.Evolves b fx m')
    (hput : ∀ document, .put (Key.trail s.device s.trigger) document ∉ fx) :
    Enters e s recorded ran m r gx := by
  have same (result : Except EvaluationFailure Outcome) :
      e.putTrail s result recorded m' = e.putTrail s result recorded m := by
    rw [putTrail, putTrail, trailWith, trailWith, ev.document?_eq hput]
  cases h with
  | offCalendar => exact .offCalendar
  | unnamed h => exact .unnamed h
  | entered h => rw [same]; exact .entered h
  | enteredFailure h => rw [same]; exact .enteredFailure h
  | missed hm h => exact .missed (ev.isFaulty_iff.mp hm) h
  | lost cause hm h => exact .lost cause (ev.isFaulty_iff.mp hm) h

/-- An evaluation whose steps came to an outcome or failed goes on to the trail. -/
theorem onSession_evaluate {s : Submission} {clock : ClockReadings} {session t : Session Memory}
    {result : Except EvaluationFailure Outcome}
    (h : (e.run s clock.received).onSession session = (result.mapError .failed, t)) :
    (e.evaluate s clock).onSession session =
      (e.enterTrail s result clock.recorded).onSession t := by
  refine Action.onSession_bind_ok ((Action.onSession_attempt _ _).trans ?_)
  rw [h]
  cases result <;> rfl

/-- An evaluation runs its steps up to the outcome and then enters what they came to. -/
theorem evaluate_course (he : e.IsInMemory b) (s : Submission) (clock : ClockReadings)
    (session : Session Memory) :
    ∃ fx gx,
      Runs b e s clock.received session.stores
        ((e.run s clock.received).onSession session).1 fx ∧
      Enters e s clock.recorded ((e.run s clock.received).onSession session).1 session.stores
        ((e.evaluate s clock).onSession session).1 gx ∧
      session.stores.Evolves b (fx ++ gx) ((e.evaluate s clock).onSession session).2.stores := by
  obtain ⟨fx, hr, ev⟩ := run_behaves he s clock.received session
  have untouched := hr.put_trail_not_mem s.device s.trigger
  have close (result : Except EvaluationFailure Outcome) {t : Session Memory}
      (hran : (e.run s clock.received).onSession session = (result.mapError .failed, t)) :
      ∃ gx, Enters e s clock.recorded (result.mapError .failed) session.stores
          ((e.evaluate s clock).onSession session).1 gx ∧
        session.stores.Evolves b (fx ++ gx) ((e.evaluate s clock).onSession session).2.stores := by
    rw [hran] at ev
    rw [onSession_evaluate hran]
    obtain ⟨gx, hx, ev'⟩ := enterTrail_behaves he s result clock.recorded t
    exact ⟨gx, hx.earlier ev untouched, ev.trans ev'⟩
  rcases hran : (e.run s clock.received).onSession session with ⟨(failure | _ | _) | outcome, t⟩ <;>
    rw [hran] at hr
  · exact ⟨fx, (close (.error failure) hran).imp fun _ h => ⟨hr, h⟩⟩
  · cases hr with
    | accepted h hj => cases hj
  -- a horizon before the calendar ends the evaluation without an entry in the trail
  · have stopped : (e.evaluate s clock).onSession session = (.error .outsideCalendar, t) :=
      Action.onSession_bind_error ((Action.onSession_attempt _ _).trans (by rw [hran]; rfl))
    rw [hran] at ev
    rw [stopped]
    exact ⟨fx, [], hr, .offCalendar, by rwa [List.append_nil]⟩
  · exact ⟨fx, (close (.ok outcome) hran).imp fun _ h => ⟨hr, h⟩⟩

end Evaluator

end TriggerWatch
