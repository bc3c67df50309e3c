import TriggerWatch.Proofs.Spacing

/-!
# What a suppression rests on

A trigger is suppressed on the strength of its record alone, and the record is put before the
trigger is written into the reported state. So a suppression does not show that there was a fire:
the write may have failed after the record was put. It does show an earlier episode about the same
trigger that got as far as this write.

## Main definitions

- `Episode.Records` — an episode puts its time on record as a fire and then writes, or fails to
- `Evaluator.AreAccounted` — the records of fires stem from past episodes

## Main statements

- `Evaluator.suppression_recorded` — a suppression rests on an earlier episode of the run
-/

namespace TriggerWatch

open Memory (Backing Change)

variable {b : Backing} {e : Evaluator Memory} {a : Accepted}

/-- An episode puts its time on record as the last fire of a trigger. It then writes the trigger
into the reported state, unless that is what fails. -/
structure Episode.Records (ep : Episode) (device trigger : String) (t : Instant) : Prop where
  device_eq : ep.request.submission.device = device
  trigger_eq : ep.request.submission.trigger = trigger
  time_eq : ep.request.time = .ok t
  put : .put (Key.cooldown device trigger) (Cooldown.document t) ∈ ep.changes
  written : (∃ certainty, .update device (Firing.attributes trigger certainty t) ∈ ep.changes) ∨
    ∃ cause, ep.result = .error (.failed (.storeUnavailable .state cause))

theorem Episode.Passes.records {ep : Episode} (h : ep.Passes e a) :
    ep.Records a.reading.device a.rule.trigger a.now where
  device_eq := h.accepts.device_eq.symm
  trigger_eq := h.accepts.trigger_eq.symm
  time_eq := h.accepts.time
  put := h.passes.recorded
  written := h.passes.written

namespace Evaluator

/-- Every record of a fire stems from a past episode that passed the check of its trigger. -/
def AreAccounted (e : Evaluator Memory) (past : List Episode) (m : Memory) : Prop :=
  ∀ device trigger last, m.lastFire? device trigger = some last →
    ∃ ep ∈ past, ∃ a, ep.Passes e a ∧ last = a.now.truncated ∧
      Key.cooldown device trigger = Key.cooldown a.reading.device a.rule.trigger

theorem areAccounted_of_empty {m : Memory} (h : m.documents = []) : e.AreAccounted [] m := by
  intro device trigger last hl
  rw [Memory.lastFire?, Memory.document?, h] at hl
  cases hl

/-- An episode leaves the records as they are or accounts for the one it replaces. -/
theorem AreAccounted.episode (he : e.IsInMemory b) {session : Session Memory} {request : Request}
    (hy : ∀ t, request.time = .ok t → t.HasPlainYear) {past : List Episode}
    (h : e.AreAccounted past session.stores) :
    e.AreAccounted (past ++ [e.episode session request])
      (e.episode session request).after.stores := by
  intro device trigger last hl
  rcases lastFire?_episode he session hy device trigger with hs | ⟨a, hp, hk, hs, -⟩
  · obtain ⟨ep, hep, hrest⟩ := h device trigger last (hs.symm.trans hl)
    exact ⟨ep, List.mem_append_left _ hep, hrest⟩
  · have hlast : last = a.now.truncated := Option.some.inj (hl.symm.trans hs)
    exact ⟨_, List.mem_append_right _ List.mem_cons_self, a, hp, hlast, hk⟩

/-- Before every episode of a run the records are accounted for by the episodes before it. -/
theorem areAccounted_before (he : e.IsInMemory b) {start : Session Memory} {requests : List Request}
    (hy : ∀ request ∈ requests, ∀ t, request.time = .ok t → t.HasPlainYear)
    {past earlier later : List Episode} {ep : Episode} (h : e.AreAccounted past start.stores)
    (hrun : e.episodes start requests = earlier ++ ep :: later) :
    e.AreAccounted (past ++ earlier) ep.before.stores := by
  induction requests generalizing start past earlier with
  | nil => cases earlier <;> cases hrun
  | cons request rest ih =>
    cases earlier with
    | nil =>
      cases hrun
      rwa [List.append_nil]
    | cons first earlier =>
      -- the first episode joins the past of the rest
      obtain ⟨rfl, htail⟩ := List.cons.inj hrun
      have hnext := h.episode he (hy request List.mem_cons_self)
      rw [List.append_cons]
      exact ih (fun r hr => hy r (List.mem_cons_of_mem _ hr)) hnext htail

theorem Enters.eq_ok {s : Submission} {recorded : Instant} {m : Memory} {gx : List Change}
    {ran : Except (Stop EvaluationFailure) Outcome} {outcome : Outcome}
    (h : Enters e s recorded ran m (.ok outcome) gx) : ran = .ok outcome := by
  cases h <;> rfl

theorem Judges.isHeld_of_suppressed {m : Memory} {fx : List Change} {outcome : Outcome}
    (h : Judges b e a m (.ok outcome) fx) (hk : outcome.kind = .suppressed) :
    a.IsHeld m e.minCooldown := by
  cases h with
  | suppressed hs hv hc => exact hc
  | _ => cases hk

theorem isHeld_of_suppressed (he : e.IsInMemory b) {session : Session Memory} {request : Request}
    (hk : (e.episode session request).kind? = some .suppressed) :
    ∃ a, e.Accepts request.submission request.clock.received a ∧
      a.IsHeld session.stores e.minCooldown := by
  obtain ⟨outcome, hr, hk⟩ := Episode.kind?_eq_some_iff.mp hk
  obtain ⟨fx, gx, hran, hx, -⟩ := evaluate_course he request.submission request.clock session
  have hr : ((e.evaluate request.submission request.clock).onSession session).1 = .ok outcome := hr
  rw [hr] at hx
  rw [hx.eq_ok] at hran
  cases hran with
  | accepted h hj => exact ⟨_, ok_of_accept h, hj.isHeld_of_suppressed hk⟩

/-- A record that holds a trigger back was put by an episode about the same trigger. -/
theorem exists_records_of_isHeld {past : List Episode} {m : Memory} {s : Submission}
    {received : Instant} (h : e.AreAccounted past m) (ha : e.Accepts s received a)
    (hheld : a.IsHeld m e.minCooldown) :
    ∃ ep ∈ past, ∃ t, ep.Records s.device s.trigger t ∧
      Cooldown.isCooling (max a.rule.period e.minCooldown) t.truncated a.now := by
  obtain ⟨last, hl, hcooling⟩ := hheld
  obtain ⟨ep, hep, a', hp, rfl, hk⟩ := h _ _ _ hl
  obtain ⟨hdevice, htrigger⟩ :=
    Key.cooldown_inj ha.not_hasSeparator hp.accepts.not_hasSeparator hk
  have hrecords := hp.records
  rw [← hdevice, ← htrigger, ha.device_eq, ha.trigger_eq] at hrecords
  exact ⟨ep, hep, a'.now, hrecords, hcooling⟩

theorem cooldown_document?_of_failed (he : e.IsInMemory b) {session : Session Memory}
    {request : Request} {failure : EvaluationFailure}
    (hr : (e.episode session request).result = .error (.failed failure))
    (hstate : ∀ cause, failure ≠ .storeUnavailable .state cause)
    (htrail : ∀ cause, failure ≠ .storeUnavailable .trail cause) (device trigger : String) :
    (e.episode session request).after.stores.document? (Key.cooldown device trigger) =
      session.stores.document? (Key.cooldown device trigger) := by
  rcases episode_passes_or_isIdle he session request with ⟨a, hp⟩ | hi
  -- an episode that passes the check has an outcome or fails at one of the two excluded steps
  · rcases hp.passes.ended with ⟨outcome, ho⟩ | ⟨step, cause, rfl | rfl, hf⟩
    · rw [hr] at ho
      cases ho
    · rw [hr] at hf
      cases hf
      exact absurd rfl (hstate cause)
    · rw [hr] at hf
      cases hf
      exact absurd rfl (htrail cause)
  · exact (episode_evolves he session request).document?_eq (hi.put device trigger)

/-- A suppression in a run from empty stores rests on an earlier episode about the same trigger that
is still too recent. That episode got as far as the write into the reported state: it put its time
on record, and then the write succeeded or was what failed. An episode that fails earlier leaves the
documents of all records as they were. -/
theorem suppression_recorded {settings : Settings.Evaluation}
    (he : inMemory? b settings = some e) {start : Session Memory}
    (hempty : start.stores.documents = []) {requests : List Request}
    (hy : ∀ request ∈ requests, ∀ t, request.time = .ok t → t.HasPlainYear)
    {earlier later : List Episode} {ep : Episode}
    (hrun : e.episodes start requests = earlier ++ ep :: later) :
    (ep.kind? = some .suppressed →
      ∃ now rule, ep.request.time = .ok now ∧ ep.request.submission.rule = .ok rule ∧
        ∃ ep₀ ∈ earlier, ∃ t,
          ep₀.Records ep.request.submission.device ep.request.submission.trigger t ∧
          ∀ ready, t.truncated.add? (max rule.period e.minCooldown) = some ready → now < ready) ∧
    ∀ failure, ep.result = .error (.failed failure) →
      (∀ cause, failure ≠ .storeUnavailable .state cause) →
      (∀ cause, failure ≠ .storeUnavailable .trail cause) →
      ∀ device trigger, ep.after.stores.document? (Key.cooldown device trigger) =
        ep.before.stores.document? (Key.cooldown device trigger) := by
  have hin := isInMemory_of_inMemory? he
  have hep := (mem_episodes (hrun ▸ List.mem_append_right earlier List.mem_cons_self)).2
  have haccounted := areAccounted_before hin hy (areAccounted_of_empty hempty) hrun
  rw [List.nil_append] at haccounted
  refine ⟨fun hk => ?_, fun failure hr hstate htrail device trigger => ?_⟩
  · rw [hep] at hk
    obtain ⟨a, ha, hheld⟩ := isHeld_of_suppressed hin hk
    obtain ⟨ep₀, hmem, t, hrecords, hcooling⟩ := exists_records_of_isHeld haccounted ha hheld
    refine ⟨a.now, a.rule, ha.time, ha.rule, ep₀, hmem, t, hrecords, fun ready hready => ?_⟩
    rw [Cooldown.isCooling, hready] at hcooling
    exact of_decide_eq_true hcooling
  · rw [hep] at hr ⊢
    exact cooldown_document?_of_failed hin hr hstate htrail device trigger

/-- Three readings of a run whose second one cannot write its trigger into the reported state. -/
def refusedWrite : List Episode :=
  (standard .apart).episodes .refusing
    (["2024-05-01T10:00:00Z", "2024-05-01T10:01:10Z", "2024-05-01T10:01:15Z"].map Request.sample)

/-- The third reading is suppressed although nothing was ever written into the reported state. -/
theorem suppressed_without_write :
    refusedWrite.map Episode.kind? = [some .pending, none, some .suppressed] ∧
      ∀ ep ∈ refusedWrite, ¬ ep.Writes := by
  decide +kernel

/-- What it rests on is the record of an episode before it. -/
theorem suppression_recorded_of_refusedWrite :
    ∃ first second third, refusedWrite = [first, second, third] ∧
      third.kind? = some .suppressed ∧
      ∃ ep₀ ∈ [first, second], ∃ t, ep₀.Records "boiler" "low" t := by
  have hkinds : refusedWrite.map Episode.kind? =
      [some .pending, none, some .suppressed] := by
    decide +kernel
  have hk := (List.cons.inj (List.cons.inj (List.cons.inj hkinds).2).2).1
  refine ⟨_, _, _, rfl, hk, ?_⟩
  have hrun : refusedWrite = [_, _] ++ _ :: [] := rfl
  obtain ⟨now, rule, -, -, ep₀, hep₀, t, hrecords, -⟩ :=
    (suppression_recorded (inMemory?_default .apart) rfl (by decide +kernel) hrun).1 hk
  exact ⟨ep₀, hep₀, t, hrecords⟩

end Evaluator

end TriggerWatch
