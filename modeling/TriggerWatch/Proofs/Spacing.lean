import TriggerWatch.Proofs.Acceptance
import TriggerWatch.Proofs.Episodes
import TriggerWatch.Proofs.Timestamps

/-!
# The spacing of fires

An episode that writes into the reported state has passed the check of its trigger, and with it
replaced the record of the last fire by its own time. A check is passed only if the wait after the
fire on record is over, so the record never moves back, and every later fire keeps its distance from
all earlier ones. This holds whatever happens in between, because no other step touches the record.

## Main definitions

- `Episode.Passes` — an episode passes the check of its trigger
- `Memory.IsIdle` — some changes leave all records of fires alone
- `Episode.Writes` — an episode writes into the reported state
- `Memory.FiredSince` — the invariant: the record of a trigger is not earlier than an instant

## Main statements

- `Evaluator.episode_passes_or_isIdle` — an episode passes the check or is idle
- `Evaluator.lastFire?_episode` — what an episode does to a record
- `Evaluator.fires_spaced` — the spacing of fires in a run
-/

namespace TriggerWatch

open Memory (Backing Change)

variable {b : Backing} {e : Evaluator Memory} {ep : Episode} {a : Accepted}

/-! ### Passing the check of a trigger -/

/-- Some changes leave all records of fires and all reported state alone. -/
structure Memory.IsIdle (fx : List Change) : Prop where
  put : ∀ device trigger document, .put (Key.cooldown device trigger) document ∉ fx
  update : ∀ device attributes, .update device attributes ∉ fx

theorem Memory.IsIdle.append {fx gx : List Change} (hf : IsIdle fx) (hg : IsIdle gx) :
    IsIdle (fx ++ gx) where
  put device trigger document := by simp [hf.put, hg.put]
  update device attributes := by simp [hf.update, hg.update]

/-- A satisfied rule finds its trigger free and records a fire. The trigger is then written into the
reported state, unless that is what fails. -/
structure Accepted.Passes (a : Accepted) (floor : Span) (m : Memory)
    (r : Except (Stop EvaluationFailure) Outcome) (fx : List Change) : Prop where
  satisfied : ∃ horizon certainty, a.verdict horizon m = .satisfied certainty
  not_isHeld : ¬ a.IsHeld m floor
  recorded : a.putCooldown ∈ fx
  only : ∀ device trigger document, .put (Key.cooldown device trigger) document ∈ fx →
    .put (Key.cooldown device trigger) document = a.putCooldown
  written : (∃ certainty, .update a.reading.device (a.attributes certainty) ∈ fx) ∨
    ∃ cause, r = .error (.failed (.storeUnavailable .state cause))
  ended : (∃ outcome, r = .ok outcome) ∨
    ∃ step cause, (step = .state ∨ step = .trail) ∧
      r = .error (.failed (.storeUnavailable step cause))

/-- An episode passes the check of its trigger. -/
structure Episode.Passes (e : Evaluator Memory) (ep : Episode) (a : Accepted) : Prop where
  accepts : e.Accepts ep.request.submission ep.request.clock.received a
  passes : a.Passes e.minCooldown ep.before.stores ep.result ep.changes

/-- An episode writes into the reported state of its device. -/
def Episode.Writes (ep : Episode) : Prop :=
  ∃ attributes, .update ep.request.submission.device attributes ∈ ep.changes

/-- Whether a change updates the reported state of a device. -/
def Memory.Change.updates (device : String) : Change → Bool
  | .update other _ => other == device
  | _ => false

instance (ep : Episode) : Decidable ep.Writes :=
  decidable_of_iff (ep.changes.any (·.updates ep.request.submission.device)) <| by
    rw [List.any_eq_true]
    constructor
    · rintro ⟨_ | ⟨other, attributes⟩ | _, hc, hu⟩
      · cases hu
      · exact ⟨attributes, eq_of_beq hu ▸ hc⟩
      · cases hu
    · rintro ⟨attributes, hc⟩
      exact ⟨_, hc, beq_self_eq_true _⟩

namespace Evaluator

theorem Judges.passes_or_isIdle {m : Memory} {r : Except (Stop EvaluationFailure) Outcome}
    {fx : List Change} (h : Judges b e a m r fx) :
    a.Passes e.minCooldown m r fx ∨ Memory.IsIdle fx := by
  cases h with
  | stateFailed cause hm hs hv hc =>
    refine .inl ⟨⟨_, _, hv⟩, hc, by simp, fun device trigger document hput => ?_, .inr ⟨_, rfl⟩,
      .inr ⟨_, _, .inl rfl, rfl⟩⟩
    simpa [Accepted.putHistory, Accepted.announce, Key.ne_of_kindLetter_ne] using hput
  | @fired _ _ certainty hs hv hc =>
    refine .inl ⟨⟨_, _, hv⟩, hc, by simp, fun device trigger document hput => ?_,
      .inl ⟨certainty, by simp [Memory.update_mem_updateChanges]⟩, .inl ⟨_, rfl⟩⟩
    have hu : .put (Key.cooldown device trigger) document ∉
        m.updateChanges b a.reading.device (a.attributes certainty) := fun hmem =>
      Key.ne_of_kindLetter_ne (by simp) (Memory.key_eq_of_mem_updateChanges hmem)
    simpa [hu, Accepted.putHistory, Accepted.announce, Key.ne_of_kindLetter_ne] using hput
  | _ => exact .inr ⟨by simp [Accepted.putHistory, Key.ne_of_kindLetter_ne],
      by simp [Accepted.putHistory]⟩

theorem Enters.isIdle {s : Submission} {recorded : Instant} {m : Memory} {gx : List Change}
    {ran r : Except (Stop EvaluationFailure) Outcome} (h : Enters e s recorded ran m r gx) :
    Memory.IsIdle gx := by
  cases h <;> exact ⟨by simp [putTrail, Key.ne_of_kindLetter_ne], by simp [putTrail]⟩

/-- A failure of the steps up to the outcome is the failure of the evaluation. -/
theorem Enters.eq_of_failed {s : Submission} {recorded : Instant} {m : Memory} {gx : List Change}
    {failure : EvaluationFailure} {r : Except (Stop EvaluationFailure) Outcome}
    (h : Enters e s recorded (.error (.failed failure)) m r gx) :
    r = .error (.failed failure) := by
  cases h <;> rfl

/-- Entering the result changes nothing about the check of the trigger. -/
theorem Enters.passes {s : Submission} {recorded : Instant} {m : Memory} {fx gx : List Change}
    {floor : Span} {ran r : Except (Stop EvaluationFailure) Outcome}
    (hx : Enters e s recorded ran m r gx) (h : a.Passes floor m ran fx) :
    a.Passes floor m r (fx ++ gx) where
  satisfied := h.satisfied
  not_isHeld := h.not_isHeld
  recorded := List.mem_append_left _ h.recorded
  only device trigger document hmem := by
    rcases List.mem_append.mp hmem with hmem | hmem
    · exact h.only device trigger document hmem
    · exact absurd hmem (hx.isIdle.put device trigger document)
  written := by
    rcases h.written with ⟨certainty, hu⟩ | ⟨cause, rfl⟩
    · exact .inl ⟨certainty, List.mem_append_left _ hu⟩
    · exact .inr ⟨cause, hx.eq_of_failed⟩
  ended := by
    rcases h.ended with ⟨outcome, rfl⟩ | ⟨step, cause, hstep, rfl⟩
    · cases hx with
      | lost cause => exact .inr ⟨_, cause, .inr rfl, rfl⟩
      | _ => exact .inl ⟨_, rfl⟩
    · exact .inr ⟨step, cause, hstep, hx.eq_of_failed⟩

theorem Runs.passes_or_isIdle {s : Submission} {received : Instant} {m : Memory}
    {r : Except (Stop EvaluationFailure) Outcome} {fx : List Change}
    (h : Runs b e s received m r fx) :
    (∃ a, e.Accepts s received a ∧ a.Passes e.minCooldown m r fx) ∨ Memory.IsIdle fx := by
  cases h with
  | refused h => exact .inr ⟨by simp, by simp⟩
  | accepted h hj =>
    rcases hj.passes_or_isIdle with hp | hi
    · exact .inl ⟨_, ok_of_accept h, hp⟩
    · exact .inr hi

/-- An episode passes the check of its trigger or is idle. -/
theorem episode_passes_or_isIdle (he : e.IsInMemory b) (session : Session Memory)
    (request : Request) :
    (∃ a, (e.episode session request).Passes e a) ∨
      Memory.IsIdle (e.episode session request).changes := by
  obtain ⟨fx, gx, hr, hx, ev⟩ := evaluate_course he request.submission request.clock session
  have changes : (e.episode session request).changes = fx ++ gx := Episode.changes_eq ev
  rcases hr.passes_or_isIdle with ⟨a, ha, hp⟩ | hi
  · exact .inl ⟨a, ha, changes ▸ hx.passes hp⟩
  · exact .inr (changes ▸ hi.append hx.isIdle)

end Evaluator

/-! ### The record of the last fire -/

namespace Cooldown

theorem isCooling_eq_false_iff (wait : Span) (last now : Instant) :
    isCooling wait last now = false ↔ ∃ ready, last.add? wait = some ready ∧ ready ≤ now := by
  rw [isCooling]
  cases last.add? wait with
  | none => simp
  | some ready => simp [Instant.le_iff_not_lt]

/-- The time of a fire is read back to the microsecond. -/
theorem fire?_document {t : Instant} (h : t.HasPlainYear) :
    fire? (document t) = some t.truncated := by
  have hget : (document t).get? "timestamp" = some t.toJson := by
    rw [document, Json.get?, Dict.get?_cons, if_pos rfl]
  rw [fire?, hget, Option.bind_some, Instant.toJson, Json.string?, Option.bind_some,
    Instant.ofText?_format h]

end Cooldown

namespace Episode.Passes

theorem second_le_wait (h : ep.Passes e a) :
    1000000000 ≤ (max a.rule.period e.minCooldown).nanos := by
  obtain ⟨horizon, certainty, hv⟩ := h.passes.satisfied
  have := h.accepts.second_le_period hv
  rw [Span.nanos_max]
  omega

theorem exists_ready (h : ep.Passes e a) {last : Instant}
    (hl : ep.before.stores.lastFire? a.reading.device a.rule.trigger = some last) :
    ∃ ready, last.add? (max a.rule.period e.minCooldown) = some ready ∧ ready ≤ a.now := by
  rw [← Cooldown.isCooling_eq_false_iff, Bool.eq_false_iff]
  exact fun hc => h.passes.not_isHeld ⟨last, hl, hc⟩

theorem last_le (h : ep.Passes e a) {last : Instant}
    (hl : ep.before.stores.lastFire? a.reading.device a.rule.trigger = some last) :
    last ≤ a.now.truncated := by
  obtain ⟨ready, hr, hle⟩ := h.exists_ready hl
  exact Instant.le_truncated_of_add? h.second_le_wait hr hle

theorem lastFire?_after (h : ep.Passes e a) (ev : ep.before.stores.Evolves b ep.changes
    ep.after.stores) (hy : a.now.HasPlainYear) :
    ep.after.stores.lastFire? a.reading.device a.rule.trigger = some a.now.truncated := by
  have only (other : Json)
      (ho : .put (Key.cooldown a.reading.device a.rule.trigger) other ∈ ep.changes) :
      other = Cooldown.document a.now := (Change.put.inj (h.passes.only _ _ _ ho)).2
  rw [Memory.lastFire?, ev.document?_enacted,
    Memory.document?_enactAll_of_mem h.passes.recorded only, Option.bind_some,
    Cooldown.fire?_document hy]

end Episode.Passes

/-- An episode keeps the record of a fire or replaces it by its own time, which is not earlier. -/
theorem Evaluator.lastFire?_episode (he : e.IsInMemory b) (session : Session Memory)
    {request : Request} (hy : ∀ t, request.time = .ok t → t.HasPlainYear)
    (device trigger : String) :
    (e.episode session request).after.stores.lastFire? device trigger =
        session.stores.lastFire? device trigger ∨
      ∃ a, (e.episode session request).Passes e a ∧
        Key.cooldown device trigger = Key.cooldown a.reading.device a.rule.trigger ∧
        (e.episode session request).after.stores.lastFire? device trigger =
          some a.now.truncated ∧
        ∀ last, session.stores.lastFire? device trigger = some last → last ≤ a.now.truncated := by
  have ev := episode_evolves he session request
  rcases episode_passes_or_isIdle he session request with ⟨a, hp⟩ | hi
  -- the keys are compared, for two pairs of names without checks could share one
  · by_cases hk : Key.cooldown device trigger = Key.cooldown a.reading.device a.rule.trigger
    · have same (m : Memory) :
          m.lastFire? device trigger = m.lastFire? a.reading.device a.rule.trigger := by
        rw [Memory.lastFire?, Memory.lastFire?, hk]
      rw [same, same]
      exact .inr ⟨a, hp, hk, hp.lastFire?_after ev (hy _ hp.accepts.time), fun last => hp.last_le⟩
    · exact .inl (ev.lastFire?_eq fun document hmem =>
        hk (Change.put.inj (hp.passes.only _ _ _ hmem)).1)
  · exact .inl (ev.lastFire?_eq (hi.put device trigger))

/-! ### Fires of a run -/

/-- The record of the last fire of a trigger is not earlier than an instant. -/
def Memory.FiredSince (m : Memory) (device trigger : String) (t : Instant) : Prop :=
  ∃ last, m.lastFire? device trigger = some last ∧ ¬ last.isLeap ∧ t ≤ last

/-- Every episode keeps it that way, whatever it is about. -/
theorem Memory.FiredSince.episode (he : e.IsInMemory b) {session : Session Memory}
    {request : Request} (hy : ∀ t, request.time = .ok t → t.HasPlainYear ∧ ¬ t.isLeap)
    {device trigger : String} {t : Instant} (h : session.stores.FiredSince device trigger t) :
    (e.episode session request).after.stores.FiredSince device trigger t := by
  obtain ⟨last, hl, hleap, hle⟩ := h
  rcases Evaluator.lastFire?_episode he session (fun t ht => (hy t ht).1) device trigger with
    hs | ⟨a, hp, -, hs, hmono⟩
  · exact ⟨last, hs.trans hl, hleap, hle⟩
  · exact ⟨a.now.truncated, hs, Instant.not_isLeap_truncated (hy _ hp.accepts.time).2,
      Instant.le_trans hle (hmono last hl)⟩

namespace Episode.Passes

theorem firedSince (h : ep.Passes e a)
    (ev : ep.before.stores.Evolves b ep.changes ep.after.stores) (hy : a.now.HasPlainYear)
    (hleap : ¬ a.now.isLeap) :
    ep.after.stores.FiredSince a.reading.device a.rule.trigger a.now.truncated :=
  ⟨_, h.lastFire?_after ev hy, Instant.not_isLeap_truncated hleap, Instant.le_refl _⟩

/-- A trigger that fires has waited since the fire on record. -/
theorem spaced (h : ep.Passes e a) {t : Instant}
    (hf : ep.before.stores.FiredSince a.reading.device a.rule.trigger t) (ht : ¬ t.isLeap)
    (hleap : ¬ a.now.isLeap) :
    t.toNanos + max a.rule.period.nanos e.minCooldown.nanos ≤ a.now.toNanos := by
  obtain ⟨last, hl, hlast, hle⟩ := hf
  obtain ⟨ready, hr, hready⟩ := h.exists_ready hl
  obtain ⟨hr, hsum⟩ := (Instant.add?_eq_some_iff _ hlast).mp hr
  rw [Instant.le_iff_toNanos_le ht hlast] at hle
  rw [Instant.le_iff_toNanos_le hr hleap, hsum, Span.nanos_max] at hready
  omega

end Episode.Passes

namespace Evaluator

theorem passes_of_writes (he : e.IsInMemory b) {session : Session Memory} {request : Request}
    (h : (e.episode session request).Writes) : ∃ a, (e.episode session request).Passes e a := by
  obtain ⟨attributes, hu⟩ := h
  exact (episode_passes_or_isIdle he session request).resolve_right fun hi => hi.update _ _ hu

theorem toSigned64_of_lt {n : Nat} (h : n < 0x8000000000000000) : toSigned64 n = n := by
  have hmod : n % 0x10000000000000000 = n := Nat.mod_eq_of_lt (by omega)
  have hlow : (n : Int) < 0x8000000000000000 := by omega
  unfold toSigned64
  rw [hmod]
  exact if_pos hlow

/-- The floor of an evaluator is the number of seconds in its settings, if that is not too large
for a span. -/
theorem minCooldown_of_inMemory? {settings : Settings.Evaluation}
    (h : inMemory? b settings = some e) (hfloor : settings.minCooldown ≤ Span.maxSeconds) :
    e.minCooldown = Span.ofSeconds settings.minCooldown := by
  simp only [inMemory?, ofSettings?, Option.bind_eq_bind, Option.bind_eq_some_iff] at h
  obtain ⟨retention, -, minCooldown, hm, he⟩ := h
  cases he
  simp only [Span.maxSeconds] at hfloor
  rw [toSigned64_of_lt (by omega), Span.ofSeconds?, if_pos (by simp only [Span.maxSeconds]; omega)]
    at hm
  exact (Option.some.inj hm).symm

/-- Throughout a run no record of a last fire becomes earlier or is lost. -/
theorem lastFire?_monotone (he : e.IsInMemory b) {start : Session Memory} {requests : List Request}
    (hy : ∀ request ∈ requests, ∀ t, request.time = .ok t → t.HasPlainYear) {ep : Episode}
    (hep : ep ∈ e.episodes start requests) {device trigger : String} {last : Instant}
    (hl : ep.before.stores.lastFire? device trigger = some last) :
    ∃ last', ep.after.stores.lastFire? device trigger = some last' ∧ last ≤ last' := by
  obtain ⟨hmem, hep⟩ := mem_episodes hep
  rw [hep]
  rcases lastFire?_episode he ep.before (hy _ hmem) device trigger with
    hs | ⟨a, -, -, hs, hmono⟩
  · exact ⟨last, hs.trans hl, Instant.le_refl last⟩
  · exact ⟨a.now.truncated, hs, hmono last hl⟩

/-- An episode that fires keeps its distance from a fire on record. -/
theorem isSpaced_of_firedSince (he : e.IsInMemory b) {floor : Int}
    (hfloor : floor ≤ e.minCooldown.nanos) {session : Session Memory} {request : Request}
    (hy : ∀ t, request.time = .ok t → t.HasPlainYear ∧ ¬ t.isLeap) {t : Instant} (ht : ¬ t.isLeap)
    (hf : session.stores.FiredSince request.submission.device request.submission.trigger t)
    (hw : (e.episode session request).Writes) :
    ∃ t₂ rule, request.time = .ok t₂ ∧ request.submission.rule = .ok rule ∧
      t.toNanos + max rule.period.nanos floor ≤ t₂.toNanos := by
  obtain ⟨a, hp⟩ := passes_of_writes he hw
  have hdevice : a.reading.device = request.submission.device := hp.accepts.device_eq
  have htrigger : a.rule.trigger = request.submission.trigger := hp.accepts.trigger_eq
  rw [← hdevice, ← htrigger] at hf
  have := hp.spaced hf ht (hy _ hp.accepts.time).2
  exact ⟨a.now, a.rule, hp.accepts.time, hp.accepts.rule, by omega⟩

/-- Two episodes about the same trigger of the same device that both write into the reported state
are apart by the longer of the period of the later one's rule and the floor, counted from the time
of the earlier one without its nanoseconds below the microsecond. -/
def Spaced (floor : Int) (earlier later : Episode) : Prop :=
  earlier.request.submission.device = later.request.submission.device →
  earlier.request.submission.trigger = later.request.submission.trigger →
  earlier.Writes → later.Writes →
  ∃ t₁ t₂ rule, earlier.request.time = .ok t₁ ∧ later.request.time = .ok t₂ ∧
    later.request.submission.rule = .ok rule ∧
    t₁.truncated.toNanos + max rule.period.nanos floor ≤ t₂.toNanos

theorem pairwise_spaced (he : e.IsInMemory b) {floor : Int} (hfloor : floor ≤ e.minCooldown.nanos)
    (start : Session Memory) {requests : List Request}
    (hy : ∀ request ∈ requests, ∀ t, request.time = .ok t → t.HasPlainYear ∧ ¬ t.isLeap) :
    (e.episodes start requests).Pairwise (Spaced floor) := by
  induction requests generalizing start with
  | nil => exact .nil
  | cons request rest ih =>
    have hrest := fun r hr => hy r (List.mem_cons_of_mem request hr)
    refine .cons (fun later hlater hdevice htrigger hw hw' => ?_) (ih _ hrest)
    obtain ⟨a, hp⟩ := passes_of_writes he hw
    obtain ⟨hyear, hleap⟩ := hy request List.mem_cons_self a.now hp.accepts.time
    have hf := hp.firedSince (episode_evolves he start request) hyear hleap
    rw [hp.accepts.device_eq, hp.accepts.trigger_eq, hdevice, htrigger] at hf
    -- the record of this fire lasts until the later episode
    have hf' := episodes_invariant
      (P := (·.FiredSince later.request.submission.device later.request.submission.trigger
        a.now.truncated))
      (fun r hr s => Memory.FiredSince.episode he (hrest r hr)) hf hlater
    obtain ⟨hmem, hlater⟩ := mem_episodes hlater
    rw [hlater] at hw'
    obtain ⟨t₂, rule, ht₂, hrule, hle⟩ := isSpaced_of_firedSince he hfloor (hrest _ hmem)
      (Instant.not_isLeap_truncated hleap) hf' hw'
    exact ⟨a.now, t₂, rule, hp.accepts.time, ht₂, hrule, hle⟩

/-- Fires are spaced in every run. The requests may be about any devices and rules, with times in
any order; the stores may hold anything at the start, and any store call may meet a fault. The
records of last fires that give the spacing never become earlier and are never lost. -/
theorem fires_spaced {settings : Settings.Evaluation} (he : inMemory? b settings = some e)
    (hfloor : settings.minCooldown ≤ Span.maxSeconds) (start : Session Memory)
    (requests : List Request)
    (htimes : ∀ request ∈ requests, ∀ t, request.time = .ok t → t.HasPlainYear ∧ ¬ t.isLeap) :
    (e.episodes start requests).Pairwise (Spaced (settings.minCooldown * 1000000000)) ∧
    ∀ ep ∈ e.episodes start requests, ∀ device trigger last,
      ep.before.stores.lastFire? device trigger = some last →
      ∃ last', ep.after.stores.lastFire? device trigger = some last' ∧ last ≤ last' := by
  have hin := isInMemory_of_inMemory? he
  refine ⟨pairwise_spaced hin ?_ start htimes, fun ep hep device trigger last => ?_⟩
  · rw [minCooldown_of_inMemory? he hfloor]
    exact Int.le_refl _
  · exact lastFire?_monotone hin (fun r hr t ht => (htimes r hr t ht).1) hep

/-- The readings of a run with two fires. -/
def twoFires : List Request :=
  ["2024-05-01T10:00:00Z", "2024-05-01T10:01:10Z", "2024-05-01T10:02:15Z"].map Request.sample

/-- The second reading fires, and so does the third one, 65 seconds later. -/
theorem fires_spaced_of_twoFires :
    ((standard .apart).episodes (.fresh fun _ => none) twoFires).map Episode.kind? =
      [some .pending, some .fired, some .fired] ∧
    ((standard .apart).episodes (.fresh fun _ => none) twoFires).Pairwise (Spaced 30000000000) :=
  ⟨by decide +kernel, (fires_spaced (inMemory?_default .apart) (by decide) (.fresh fun _ => none)
    twoFires (by decide +kernel)).1⟩

end Evaluator

end TriggerWatch
