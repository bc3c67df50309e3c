import TriggerWatch.Proofs.Effects

/-!
# The outcome of an evaluation

Without faults an accepted submission has an outcome, whatever the stores hold under its keys. The
records that stay in the history are picked by their timestamps alone, as they were written. Of
these only the readable readings of the rule's attribute are counted, and the counts and the last
fire settle the kind of the outcome.

## Main definitions

- `History.IsKept` — which records stay in the history
- `Cooldown.IsCoolingSince` — which last fires hold a trigger back
- `Accepted.IsJudged` — what is counted, and which kind follows
- `Session.corrupted` — a session on stores with documents of other forms

## Main statements

- `History.kept_eq` — the history is filtered by this
- `Evaluator.evaluate_outcome` — the outcome of an evaluation without faults
-/

namespace TriggerWatch

open Memory (Backing Change)

variable {b : Backing} {e : Evaluator Memory} {a : Accepted} {m : Memory}

/-! ### The records that stay -/

theorem Json.get?_eq_some_iff {j v : Json} {key : String} :
    j.get? key = some v ↔ ∃ members, j = .object members ∧ Dict.get? members key = some v := by
  cases j <;> simp [get?]

theorem Json.string?_eq_some_iff {j : Json} {s : String} : j.string? = some s ↔ j = .string s := by
  cases j <;> simp [string?]

namespace History

/-- A record stays if it is an object whose timestamp is a text that can be read as an instant not
before the horizon. -/
def IsKept (horizon : Instant) (record : Json) : Prop :=
  ∃ members raw t, record = .object members ∧ Dict.get? members "timestamp" = some (.string raw) ∧
    Instant.ofText? raw = some t ∧ horizon ≤ t

theorem timestamp?_eq_some_iff {record : Json} {t : Instant} :
    timestamp? record = some t ↔ ∃ members raw, record = .object members ∧
      Dict.get? members "timestamp" = some (.string raw) ∧ Instant.ofText? raw = some t := by
  simp only [timestamp?, Option.bind_eq_some_iff, Json.get?_eq_some_iff, Json.string?_eq_some_iff]
  constructor
  · rintro ⟨raw, ⟨_, ⟨members, hm, hg⟩, rfl⟩, ht⟩
    exact ⟨members, raw, hm, hg, ht⟩
  · rintro ⟨members, raw, hm, hg, ht⟩
    exact ⟨raw, ⟨_, ⟨members, hm, hg⟩, rfl⟩, ht⟩

theorem isRecent_iff {horizon : Instant} {record : Json} :
    isRecent horizon record = true ↔ IsKept horizon record := by
  have hkept : IsKept horizon record ↔ ∃ t, timestamp? record = some t ∧ horizon ≤ t := by
    simp only [timestamp?_eq_some_iff]
    constructor
    · rintro ⟨members, raw, t, hm, hg, ht, hle⟩
      exact ⟨t, ⟨members, raw, hm, hg, ht⟩, hle⟩
    · rintro ⟨t, ⟨members, raw, hm, hg, ht⟩, hle⟩
      exact ⟨members, raw, t, hm, hg, ht, hle⟩
  rw [hkept, isRecent]
  cases timestamp? record with
  | none => simp
  | some t => simp

instance (horizon : Instant) : DecidablePred (IsKept horizon) :=
  fun record => decidable_of_iff (isRecent horizon record = true) isRecent_iff

theorem kept_eq (horizon : Instant) (document : Option Json) (reading : Reading) :
    kept horizon document reading =
      (recordsOf document ++ [reading.toJson]).filter fun record => IsKept horizon record := by
  refine List.filter_congr fun record _ => ?_
  rw [Bool.eq_iff_iff, decide_eq_true_eq]
  exact isRecent_iff

end History

/-! ### The kind of the outcome -/

/-- Whether a last fire is known whose wait is not over. A wait that would end after the calendar is
never over. -/
def Cooldown.IsCoolingSince (wait : Span) (last : Option Instant) (now : Instant) : Prop :=
  ∃ t, last = some t ∧ ∀ ready, t.add? wait = some ready → now < ready

theorem Accepted.isHeld_iff_isCoolingSince (floor : Span) :
    a.IsHeld m floor ↔ Cooldown.IsCoolingSince (max a.rule.period floor)
      (m.lastFire? a.reading.device a.rule.trigger) a.now := by
  have hcooling (last : Instant) :
      Cooldown.isCooling (max a.rule.period floor) last a.now = true ↔
        ∀ ready, last.add? (max a.rule.period floor) = some ready → a.now < ready := by
    rw [Cooldown.isCooling]
    cases last.add? (max a.rule.period floor) <;> simp
  simp only [IsHeld, Cooldown.Holds, Cooldown.IsCoolingSince, hcooling]

/-- What is counted for an accepted submission, and which kind of outcome follows. The readings are
those that can be read among the records of the history, and the last fire is the one on record. -/
structure Accepted.IsJudged (a : Accepted) (floor : Span) (readings : List Reading)
    (last : Option Instant) (outcome : Outcome) : Prop where
  tested : outcome.tested = (a.rule.watched readings).countP fun r =>
    a.rule.windowStart a.now ≤ r.timestamp
  satisfied : outcome.satisfied = (a.rule.watched readings).countP fun r =>
    a.rule.windowStart a.now ≤ r.timestamp && a.rule.condition.holds r.value
  certainty : outcome.certainty = if outcome.tested = 0 then none
    else some (Float.ofNat outcome.satisfied / Float.ofNat outcome.tested)
  pending : outcome.kind = .pending ↔ ¬ a.rule.IsCovered readings a.now
  below : outcome.kind = .belowThreshold ↔
    a.rule.IsCovered readings a.now ∧ ¬ a.rule.Suffices outcome.certainty
  suppressed : outcome.kind = .suppressed ↔
    a.rule.IsCovered readings a.now ∧ a.rule.Suffices outcome.certainty ∧
      Cooldown.IsCoolingSince (max a.rule.period floor) last a.now
  fired : outcome.kind = .fired ↔
    a.rule.IsCovered readings a.now ∧ a.rule.Suffices outcome.certainty ∧
      ¬ Cooldown.IsCoolingSince (max a.rule.period floor) last a.now

/-- The outcome of a kind that follows from the tally and the last fire. -/
theorem Accepted.isJudged_outcome {horizon : Instant} {kind : Outcome.Kind} {floor : Span}
    {last : Option Instant} (hp : a.rule.period = ⟨0⟩ ∨ 1000000000 ≤ a.rule.period.nanos)
    (hpending : kind = .pending ↔ ¬ (a.tally horizon m).covered = true)
    (hbelow : kind = .belowThreshold ↔
      (a.tally horizon m).covered = true ∧ ¬ a.rule.Suffices (a.tally horizon m).certainty)
    (hsuppressed : kind = .suppressed ↔
      (a.tally horizon m).covered = true ∧ a.rule.Suffices (a.tally horizon m).certainty ∧
        Cooldown.IsCoolingSince (max a.rule.period floor) last a.now)
    (hfired : kind = .fired ↔
      (a.tally horizon m).covered = true ∧ a.rule.Suffices (a.tally horizon m).certainty ∧
        ¬ Cooldown.IsCoolingSince (max a.rule.period floor) last a.now) :
    a.IsJudged floor (Reading.ofRecords (a.records horizon m)) last (a.outcome horizon m kind) := by
  have hcovered : (a.tally horizon m).covered = true ↔
      a.rule.IsCovered (Reading.ofRecords (a.records horizon m)) a.now := Rule.covered_iff hp _
  have htally : a.tally horizon m = _ := Rule.tally_eq hp _
  rw [hcovered] at hpending hbelow hsuppressed hfired
  exact {
    tested := congrArg Tally.tested htally
    satisfied := congrArg Tally.satisfied htally
    certainty := rfl
    pending := hpending
    below := hbelow
    suppressed := hsuppressed
    fired := hfired }

theorem Accepted.Makes.history_eq {horizon : Instant} {outcome : Outcome}
    {v w : Memory.View} (h : a.Makes horizon m v (.ok outcome) w) :
    w.history = some (.array (a.records horizon m)) := by
  cases h <;> rfl

namespace Evaluator

theorem Judges.isJudged {horizon : Instant} {outcome : Outcome} {fx : List Change}
    (h : Judges b e a m (.ok outcome) fx) (hh : a.now.sub? e.retention = some horizon)
    (hp : a.rule.period = ⟨0⟩ ∨ 1000000000 ≤ a.rule.period.nanos) :
    a.IsJudged e.minCooldown (Reading.ofRecords (a.records horizon m))
      (m.lastFire? a.reading.device a.rule.trigger) outcome := by
  have same {horizon' : Instant} (hs : a.now.sub? e.retention = some horizon') :
      horizon' = horizon := Option.some.inj (hs.symm.trans hh)
  cases h with
  | pending hs hv =>
    cases same hs
    have hc := Rule.not_covered_of_pending hv
    exact Accepted.isJudged_outcome hp (by simp [hc]) (by simp [hc]) (by simp [hc]) (by simp [hc])
  | below hs hv =>
    cases same hs
    obtain ⟨hc, hn⟩ := Rule.covered_of_below hv
    exact Accepted.isJudged_outcome hp (by simp [hc]) (by simp [hc, hn]) (by simp [hn])
      (by simp [hn])
  | suppressed hs hv hheld =>
    cases same hs
    obtain ⟨hc, hx, hle⟩ := Rule.covered_of_satisfied hv
    have hsuffices : a.rule.Suffices (a.tally horizon m).certainty := ⟨_, hx, hle⟩
    rw [Accepted.isHeld_iff_isCoolingSince] at hheld
    exact Accepted.isJudged_outcome hp (by simp [hc]) (by simp [hsuffices])
      (by simp [hc, hsuffices, hheld]) (by simp [hheld])
  | fired hs hv hheld =>
    cases same hs
    obtain ⟨hc, hx, hle⟩ := Rule.covered_of_satisfied hv
    have hsuffices : a.rule.Suffices (a.tally horizon m).certainty := ⟨_, hx, hle⟩
    rw [Accepted.isHeld_iff_isCoolingSince] at hheld
    exact Accepted.isJudged_outcome hp (by simp [hc]) (by simp [hsuffices]) (by simp [hheld])
      (by simp [hc, hsuffices, hheld])

theorem Judges.exists_outcome {horizon : Instant} {r : Except (Stop EvaluationFailure) Outcome}
    {fx : List Change} (h : Judges b e a m r fx) (hh : a.now.sub? e.retention = some horizon)
    (hm : ¬ m.IsFaulty) : ∃ outcome, r = .ok outcome := by
  cases h with
  | historyFailed cause hf | cooldownFailed cause hf | stateFailed cause hf => exact absurd hf hm
  | offCalendar hs => cases hs.symm.trans hh
  | pending | below | suppressed | fired => exact ⟨_, rfl⟩

theorem Enters.eq_of_not_isFaulty {s : Submission} {recorded : Instant} {outcome : Outcome}
    {r : Except (Stop EvaluationFailure) Outcome} {gx : List Change}
    (h : Enters e s recorded (.ok outcome) m r gx) (hm : ¬ m.IsFaulty) : r = .ok outcome := by
  cases h with
  | lost cause hf => exact absurd hf hm
  | unnamed | entered => rfl

/-- Without faults an accepted submission has an outcome, whatever the stores hold. The records of
the history that are picked by their timestamps become the history as they were written, and the
readings among them and the last fire settle the kind of the outcome. -/
theorem evaluate_outcome {settings : Settings.Evaluation} (he : inMemory? b settings = some e)
    {s : Submission} {clock : ClockReadings} (ha : e.accept s clock.received = .ok a)
    {horizon : Instant} (hh : a.now.sub? e.retention = some horizon) {session : Session Memory}
    (hm : ¬ session.stores.IsFaulty) :
    ∃ kept outcome,
      kept = (History.recordsOf (session.stores.document? (Key.history s.device)) ++
        [a.reading.toJson]).filter (fun record => History.IsKept horizon record) ∧
      ((e.evaluate s clock).onSession session).1 = .ok outcome ∧
      ((e.evaluate s clock).onSession session).2.stores.document? (Key.history s.device) =
        some (.array kept) ∧
      a.IsJudged e.minCooldown (Reading.ofRecords kept)
        (session.stores.lastFire? s.device s.trigger) outcome := by
  obtain ⟨fx, gx, hr, hx, ev⟩ := evaluate_course (isInMemory_of_inMemory? he) s clock session
  have hj := hr.judges ha
  have haccepts := ok_of_accept ha
  obtain ⟨outcome, hran⟩ := hj.exists_outcome hh hm
  rw [hran] at hj hx
  have hresult := hx.eq_of_not_isFaulty hm
  have hjudged := hj.isJudged hh haccepts.period_eq_or_le
  -- the entry in the trail leaves the history
  have hhistory : ((e.evaluate s clock).onSession session).2.stores.document?
      (Key.history s.device) = some (.array (a.records horizon session.stores)) := by
    rw [ev.document?_enacted, Memory.enactAll_append, Memory.document?_enactAll,
      ← haccepts.device_eq]
    · exact (hj.makes hh).history_eq
    · intro document hmem
      obtain ⟨_, hc⟩ := hx.mem hmem
      exact Key.ne_of_kindLetter_ne (by simp) (Memory.Change.put.inj hc).1
  rw [haccepts.device_eq, haccepts.trigger_eq] at hjudged
  refine ⟨a.records horizon session.stores, outcome, ?_, hresult, hhistory, hjudged⟩
  rw [Accepted.records, haccepts.device_eq, History.kept_eq]

end Evaluator

/-- A session on stores with a history of which one record is a reading, and with a last fire that
cannot be read. -/
def Session.corrupted : Session Memory where
  stores := { Memory.empty with documents := [
    (Key.history "boiler", .array [
      .null,
      .object [("timestamp", .string "yesterday")],
      .object [("timestamp", .string "2024-05-01T10:00:00Z")],
      .object [("attribute", .string "level"), ("value", .number (.int 3)),
        ("timestamp", .string "2024-05-01T09:59:10Z")]]),
    (Key.cooldown "boiler" "low", .string "yesterday")] }
  elapsed := 0
  deadline := none

/-- Records and a last fire that cannot be read do not keep a trigger from firing. -/
theorem Evaluator.evaluate_outcome_of_corrupted :
    ∃ (request : Request) (a : Accepted) (horizon : Instant) (kept : List Json) (outcome : Outcome),
      ((standard .documents).episode .corrupted request).kind? = some .fired ∧
      kept = (History.recordsOf
          (Session.corrupted.stores.document? (Key.history request.submission.device)) ++
        [a.reading.toJson]).filter (fun record => History.IsKept horizon record) ∧
      (((standard .documents).evaluate request.submission request.clock).onSession
        .corrupted).1 = .ok outcome ∧
      a.IsJudged (standard .documents).minCooldown (Reading.ofRecords kept)
        (Session.corrupted.stores.lastFire? request.submission.device request.submission.trigger)
        outcome := by
  have haccepted : (((standard .documents).accept (Request.sample "2024-05-01T10:00:20Z").submission
      (Request.sample "2024-05-01T10:00:20Z").clock.received).toOption.bind fun a =>
        a.now.sub? (standard .documents).retention).isSome = true := by decide +kernel
  obtain ⟨horizon, haccepted⟩ := Option.isSome_iff_exists.mp haccepted
  obtain ⟨a, ha, hh⟩ := Option.bind_eq_some_iff.mp haccepted
  have sound : ¬ Session.corrupted.stores.IsFaulty := fun ⟨_, hn⟩ => hn rfl
  obtain ⟨kept, outcome, hkept, hresult, -, hjudged⟩ :=
    evaluate_outcome (inMemory?_default .documents) (eq_ok_of_toOption ha) hh sound
  exact ⟨.sample "2024-05-01T10:00:20Z", a, horizon, kept, outcome, by decide +kernel, hkept,
    hresult, hjudged⟩

end TriggerWatch
