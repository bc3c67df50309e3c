import TriggerWatch.Proofs.Isolation
import TriggerWatch.Proofs.Records
import TriggerWatch.Proofs.Refusals
import TriggerWatch.Proofs.Suppression
import TriggerWatch.Proofs.Verdicts

/-!
# Which rules are ever judged

A rule is judged only if a reading of the period before its window is left in the history. No
reading that is left is older than the horizon, and the window of a rule begins after the horizon
only if its period is shorter than the retention time. So a rule with a longer period waits forever,
whatever the stores hold, and its evaluations stay away from last fires and reported state.

## Main definitions

- `Rule.IsBlind` — a rule without a period before its window in any history
- `Memory.AgreeOnFires` — the same last fires and the same reported state of a device

## Main statements

- `Rule.not_isCovered_of_isBlind` — such a rule is covered by no history
- `Evaluator.episode_of_isBlind` — such a rule stays pending in every episode
- `Evaluator.period_of_judged` — the rules that are ever judged
-/

namespace TriggerWatch

open Memory (Backing Call Change)

variable {b : Backing} {e : Evaluator Memory} {a : Accepted}

/-! ### The window and the horizon -/

/-- A longer move backward does not end later. -/
theorem Instant.sub?_le_sub? {t u v : Instant} {d d' : Span}
    (hd : d = ⟨0⟩ ∨ 1000000000 ≤ d.nanos) (hd' : 1000000000 ≤ d'.nanos) (hdd : d ≤ d')
    (hu : t.sub? d = some u) (hv : t.sub? d' = some v) : v ≤ u := by
  -- a move by nothing keeps a leap second, which nanoseconds do not put in its place
  rcases hd with rfl | hd
  · rw [sub?_zero] at hu
    cases hu
    exact le_of_sub? hd' hv
  · rw [sub?_of_nonneg (by omega), if_neg (by omega)] at hu hv
    rw [le_iff_toNanos_le (not_isLeap_of_ofNanos? hv) (not_isLeap_of_ofNanos? hu),
      toNanos_of_ofNanos? hu, toNanos_of_ofNanos? hv]
    rw [Span.le_iff] at hdd
    omega

namespace Rule

variable {r : Rule} {retention : Span}

/-- A rule that has no period before its window in any history: the window has no length, or it
begins no later than the history. -/
def IsBlind (r : Rule) (retention : Span) : Prop := r.period = ⟨0⟩ ∨ retention ≤ r.period

instance (r : Rule) (retention : Span) : Decidable (r.IsBlind retention) :=
  inferInstanceAs (Decidable (_ ∨ _))

theorem windowStart_le (hr : retention = ⟨0⟩ ∨ 1000000000 ≤ retention.nanos)
    (hp : 1000000000 ≤ r.period.nanos) (hle : retention ≤ r.period) {now horizon : Instant}
    (hh : now.sub? retention = some horizon) : r.windowStart now ≤ horizon := by
  rw [windowStart]
  cases hs : now.sub? r.period with
  | none => exact Instant.earliest_le horizon
  | some start => exact Instant.sub?_le_sub? hr hp hle hh hs

/-- Readings that are not older than the horizon do not cover a blind rule. -/
theorem not_isCovered_of_isBlind (h : r.IsBlind retention)
    (hr : retention = ⟨0⟩ ∨ 1000000000 ≤ retention.nanos)
    (hp : r.period = ⟨0⟩ ∨ 1000000000 ≤ r.period.nanos) {now horizon : Instant}
    (hh : now.sub? retention = some horizon) {readings : List Reading}
    (hrecent : ∀ x ∈ readings, horizon ≤ x.timestamp) : ¬ r.IsCovered readings now := by
  rcases hp with hzero | hp
  · exact not_isCovered_of_period_eq hzero readings
  · have hle : retention ≤ r.period := h.resolve_left fun hzero => by
      rw [hzero] at hp
      exact absurd hp (by decide)
    rintro ⟨x, hx, -, hbefore⟩
    have hlater := hrecent x (List.mem_filter.mp hx).1
    exact Instant.le_trans (windowStart_le hr hp hle hh) hlater hbefore

theorem verdict_eq_pending {readings : List Reading} {now : Instant}
    (hp : r.period = ⟨0⟩ ∨ 1000000000 ≤ r.period.nanos) (h : ¬ r.IsCovered readings now) :
    r.verdict (r.tally readings now) = .pending := by
  have hcovered : (r.tally readings now).covered = false := by
    rw [Bool.eq_false_iff]
    exact fun hc => h ((covered_iff hp readings).mp hc)
  rw [verdict, hcovered]
  rfl

end Rule

/-- The retention time is a number of seconds. -/
theorem Evaluator.retention_eq_or_le {settings : Settings.Evaluation}
    (h : inMemory? b settings = some e) (hr : ⟨0⟩ ≤ e.retention) :
    e.retention = ⟨0⟩ ∨ 1000000000 ≤ e.retention.nanos := by
  simp only [inMemory?, ofSettings?, Option.bind_eq_bind, Option.bind_eq_some_iff] at h
  obtain ⟨retention, hretention, minCooldown, -, he⟩ := h
  cases he
  have hseconds : retention.nanos = toSigned64 settings.retention * 1000000000 :=
    Span.nanos_ofSeconds? hretention
  rw [Span.le_iff] at hr
  by_cases hzero : retention.nanos = 0
  · exact .inl (congrArg Span.mk hzero)
  · exact .inr (by simp only at hr ⊢; omega)

/-! ### A rule that waits forever -/

/-- Whatever joins the history, the verdict on it is that more readings are needed. -/
theorem Accepted.verdict_kept (h : a.rule.IsBlind e.retention)
    (hr : e.retention = ⟨0⟩ ∨ 1000000000 ≤ e.retention.nanos)
    (hp : a.rule.period = ⟨0⟩ ∨ 1000000000 ≤ a.rule.period.nanos) {horizon : Instant}
    (hh : a.now.sub? e.retention = some horizon) (document : Option Json) :
    a.rule.verdict (a.rule.tally
      (Reading.ofRecords (History.kept horizon document a.reading)) a.now) = .pending :=
  Rule.verdict_eq_pending hp (Rule.not_isCovered_of_isBlind h hr hp hh fun _ hx =>
    History.le_timestamp_of_mem_keepRecent hx)

/-- What the history holds after a reading has joined it. -/
theorem History.exists_kept {docs : Documents Memory} (hd : docs.IsInMemory b) {retention : Span}
    {device : String} {reading : Reading} {now : Instant} {session : Session Memory}
    {records : List Json}
    (h : ((Evaluator.inStep .history (ingest docs retention device reading now)).onSession
      session).1 = .ok records) :
    ∃ horizon document, now.sub? retention = some horizon ∧
      records = kept horizon document reading := by
  obtain ⟨fx, ⟨_, hr, hrenamed⟩, -⟩ :=
    Evaluator.inStep_behaves .history (ingest_behaves hd retention device reading now) session
  rw [h] at hrenamed
  cases hr with
  | kept hs =>
    cases hrenamed
    exact ⟨_, _, hs, rfl⟩
  | failed | offCalendar => cases hrenamed

namespace Evaluator

variable {s : Submission} {clock : ClockReadings}

/-- The documents that an evaluation reads or writes before its rule is satisfied. -/
def quietKeys (s : Submission) : List String :=
  [Key.history s.device, Key.trail s.device s.trigger]

theorem mem_quietKeys_of_mem_trailKeys {key : String} (h : key ∈ trailKeys s) :
    key ∈ quietKeys s := by
  rw [trailKeys] at h
  split at h
  · exact List.mem_cons_of_mem _ h
  · cases h

/-- An accepted submission whose rule stays pending makes no calls but on the history. -/
theorem judge_dials (he : e.IsInMemory b) (hdirect : e.documents.IsDirect)
    (hpending : ∀ horizon document, a.now.sub? e.retention = some horizon →
      a.rule.verdict (a.rule.tally
        (Reading.ofRecords (History.kept horizon document a.reading)) a.now) = .pending) :
    Dials (·.IsOn (Key.history a.reading.device)) (e.judge a) := by
  refine Dials.bind (.mapFailure _ (History.ingest_dials hdirect _ _ _ _))
    fun session records hran => ?_
  obtain ⟨horizon, document, hh, rfl⟩ := History.exists_kept he.documents hran
  simp only [hpending horizon document hh]
  exact .still fun _ => rfl

theorem evaluate_dials (hdirect : e.documents.IsDirect) (ha : e.accept s clock.received = .ok a)
    (hjudge : Dials (·.IsOn (Key.history a.reading.device)) (e.judge a)) :
    Dials (fun call => ∃ key ∈ quietKeys s, call.IsOn key) (e.evaluate s clock) := by
  rw [(ok_of_accept ha).device_eq] at hjudge
  rw [evaluate, run_of_accepted ha]
  refine (hjudge.mono fun _ hc => ⟨_, List.mem_cons_self, hc⟩).attempt.bind fun _ result _ =>
    (enterTrail_dials hdirect s result clock.recorded).mono fun call hc => ?_
  obtain ⟨key, hkey, hcall⟩ := hc
  exact ⟨key, mem_quietKeys_of_mem_trailKeys hkey, hcall⟩

/-- A pending verdict leads to a pending outcome and to no change but of the history. -/
theorem Judges.pending_of_verdict {m : Memory} {r : Except (Stop EvaluationFailure) Outcome}
    {fx : List Change} (h : Judges b e a m r fx)
    (hpending : ∀ horizon, a.now.sub? e.retention = some horizon →
      a.verdict horizon m = .pending) :
    (∀ outcome, r = .ok outcome → outcome.kind = .pending) ∧
      ∀ c ∈ fx, ∃ document, c = .put (Key.history a.reading.device) document := by
  cases h with
  | historyFailed | offCalendar => exact ⟨nofun, nofun⟩
  | pending hs hv =>
    refine ⟨fun outcome ho => ?_, fun c hc => ⟨_, List.mem_singleton.mp hc⟩⟩
    cases ho
    rfl
  | below hs hv | suppressed hs hv | fired hs hv | cooldownFailed _ _ hs hv
  | stateFailed _ _ hs hv => cases hv.symm.trans (hpending _ hs)

/-- A blind rule stays pending, on all stores and with all faults. -/
theorem episode_of_isBlind {settings : Settings.Evaluation} (he : inMemory? b settings = some e)
    (hr : ⟨0⟩ ≤ e.retention) (ha : e.accept s clock.received = .ok a)
    (hblind : a.rule.IsBlind e.retention) (session : Session Memory) :
    (∀ outcome, (e.episode session ⟨s, clock⟩).result = .ok outcome → outcome.kind = .pending) ∧
      (e.episode session ⟨s, clock⟩).KeepsTo b (quietKeys s) := by
  have hin := isInMemory_of_inMemory? he
  have hdirect := isDirect_of_inMemory? he
  have haccepts := ok_of_accept ha
  have hpending (horizon : Instant) (document : Option Json)
      (hh : a.now.sub? e.retention = some horizon) :=
    Accepted.verdict_kept hblind (retention_eq_or_le he hr) haccepts.period_eq_or_le hh document
  obtain ⟨fx, gx, hran, hx, ev⟩ := evaluate_course hin s clock session
  obtain ⟨hkind, hfx⟩ := (hran.judges ha).pending_of_verdict fun horizon hh => hpending _ _ hh
  refine ⟨fun outcome ho => ?_, keepsTo_episode
    (evaluate_dials hdirect ha (judge_dials hin hdirect hpending)) ev
    (List.forall_mem_append.mpr ⟨fun c hc => ?_, fun c hc => ?_⟩) fun device => ?_⟩
  · have hresult : ((e.evaluate s clock).onSession session).1 = .ok outcome := ho
    rw [hresult] at hx
    exact hkind outcome hx.eq_ok
  · obtain ⟨document, rfl⟩ := hfx c hc
    exact ⟨_, List.mem_cons_self, document, by rw [haccepts.device_eq]⟩
  · obtain ⟨key, hkey, hput⟩ := hx.exists_trailKey c hc
    exact ⟨key, mem_quietKeys_of_mem_trailKeys hkey, hput⟩
  · simp [quietKeys, Key.ne_of_kindLetter_ne]

/-- Without faults an accepted submission with a blind rule has a pending outcome. -/
theorem kind?_of_isBlind {settings : Settings.Evaluation} (he : inMemory? b settings = some e)
    (hr : ⟨0⟩ ≤ e.retention) (ha : e.accept s clock.received = .ok a)
    (hblind : a.rule.IsBlind e.retention) {session : Session Memory}
    (hs : ¬ session.stores.IsFaulty) (hcal : a.now.sub? e.retention ≠ none) :
    (e.episode session ⟨s, clock⟩).kind? = some .pending := by
  obtain ⟨horizon, hh⟩ := Option.ne_none_iff_exists'.mp hcal
  obtain ⟨_, outcome, -, hresult, -, -⟩ := evaluate_outcome he ha hh hs
  exact Episode.kind?_eq_some_iff.mpr
    ⟨outcome, hresult, (episode_of_isBlind he hr ha hblind session).1 outcome hresult⟩

end Evaluator

/-! ### Whole runs -/

/-- Two states of the stores hold the same last fires of a device and the same reported state of
it. -/
structure Memory.AgreeOnFires (b : Backing) (device : String) (m m' : Memory) : Prop where
  cooldown : ∀ trigger, m'.document? (Key.cooldown device trigger) =
    m.document? (Key.cooldown device trigger)
  reported? : m'.reported? b device = m.reported? b device

theorem Memory.AgreeOnFires.trans {device : String} {m m' m'' : Memory}
    (h : m.AgreeOnFires b device m') (h' : m'.AgreeOnFires b device m'') :
    m.AgreeOnFires b device m'' :=
  ⟨fun trigger => (h'.cooldown trigger).trans (h.cooldown trigger), h'.reported?.trans h.reported?⟩

theorem Episode.KeepsTo.agreeOnFires {ep : Episode} {keys : List String} (h : ep.KeepsTo b keys)
    {device : String} (hkeys : ∀ trigger, Key.cooldown device trigger ∉ keys) :
    ep.before.stores.AgreeOnFires b device ep.after.stores :=
  ⟨fun trigger => h.document? _ (hkeys trigger), h.reported? device⟩

namespace Evaluator

theorem cooldown_not_mem_quietKeys (s : Submission) (device trigger : String) :
    Key.cooldown device trigger ∉ quietKeys s := by
  simp [quietKeys, Key.ne_of_kindLetter_ne]

/-- A device whose accepted rules are blind never fires. -/
theorem agreeOnFires_episode {settings : Settings.Evaluation}
    (he : inMemory? b settings = some e) (hr : ⟨0⟩ ≤ e.retention) {request : Request}
    {device : String}
    (hblind : ∀ a, e.accept request.submission request.clock.received = .ok a →
      a.reading.device = device → a.rule.IsBlind e.retention) (session : Session Memory) :
    session.stores.AgreeOnFires b device (e.episode session request).after.stores := by
  by_cases hdevice : device = request.submission.device
  · cases ha : e.accept request.submission request.clock.received with
    | error failure =>
      exact (episode_of_refused he ha session).2.agreeOnFires fun trigger hmem =>
        cooldown_not_mem_quietKeys _ _ _ (mem_quietKeys_of_mem_trailKeys hmem)
    | ok a =>
      have hrule := hblind a ha ((ok_of_accept ha).device_eq.trans hdevice.symm)
      exact (episode_of_isBlind he hr ha hrule session).2.agreeOnFires
        (cooldown_not_mem_quietKeys _ _)
  -- an evaluation for another device does not touch this one
  · have hagree := agreeOn_episode (isInMemory_of_inMemory? he) session hdevice
    exact ⟨fun trigger => (hagree.document? _ (.cooldown trigger rfl)).symm, hagree.reported?.symm⟩

/-- Only a rule whose period is neither zero nor as long as the retention time is ever judged. In
every run, on all stores and with all faults, any other rule stays pending: without faults that is
the outcome, and with faults there is no other one. Its evaluations make no calls but on the history
and on the trail and change nothing else. So a device that has such rules only keeps its last fires
and its reported state throughout the run. -/
theorem period_of_judged {settings : Settings.Evaluation} (he : inMemory? b settings = some e)
    (hr : ⟨0⟩ ≤ e.retention) {start : Session Memory} {requests : List Request} {ep : Episode}
    (hep : ep ∈ e.episodes start requests)
    (ha : e.accept ep.request.submission ep.request.clock.received = .ok a) :
    (∀ outcome, ep.result = .ok outcome → outcome.kind ≠ .pending →
      ⟨0⟩ < a.rule.period ∧ a.rule.period < e.retention) ∧
    (a.rule.IsBlind e.retention →
      (∀ outcome, ep.result = .ok outcome → outcome.kind = .pending) ∧
      (¬ start.stores.IsFaulty → a.now.sub? e.retention ≠ none → ep.kind? = some .pending) ∧
      ep.KeepsTo b [Key.history ep.request.submission.device,
        Key.trail ep.request.submission.device ep.request.submission.trigger]) ∧
    ((∀ request ∈ requests, ∀ a', e.accept request.submission request.clock.received = .ok a' →
        a'.reading.device = a.reading.device → a'.rule.IsBlind e.retention) →
      start.stores.AgreeOnFires b a.reading.device ep.after.stores) := by
  have hin := isInMemory_of_inMemory? he
  obtain ⟨hmem, hepisode⟩ := mem_episodes hep
  have hwaits (hblind : a.rule.IsBlind e.retention) :
      (∀ outcome, ep.result = .ok outcome → outcome.kind = .pending) ∧
        ep.KeepsTo b (quietKeys ep.request.submission) := by
    rw [hepisode]
    exact episode_of_isBlind he hr ha hblind ep.before
  refine ⟨fun outcome hresult hkind => ?_, fun hblind => ?_, fun hblind => ?_⟩
  · have hsees : ¬ a.rule.IsBlind e.retention := fun hblind =>
      hkind ((hwaits hblind).1 outcome hresult)
    obtain ⟨hzero, hlong⟩ := not_or.mp hsees
    have hperiod := (ok_of_accept ha).period_eq_or_le.resolve_left hzero
    rw [Span.le_iff] at hlong
    have hpositive : 0 < a.rule.period.nanos := by omega
    have hshort : a.rule.period.nanos < e.retention.nanos := by omega
    exact ⟨hpositive, hshort⟩
  -- no fault is laid down during a run, so there is none before the episode either
  · refine ⟨(hwaits hblind).1, fun hs hcal => ?_, (hwaits hblind).2⟩
    have hbefore : ¬ ep.before.stores.IsFaulty :=
      episodes_invariant (P := fun m => ¬ m.IsFaulty)
        (fun request _ _ hm => not_isFaulty_episode hin hm request) hs hep
    rw [hepisode]
    exact kind?_of_isBlind he hr ha hblind hbefore hcal
  · have hstep (request : Request) (hrequest : request ∈ requests) (session : Session Memory) :=
      agreeOnFires_episode he hr (hblind request hrequest) session
    have hbefore : start.stores.AgreeOnFires b a.reading.device ep.before.stores :=
      episodes_invariant (fun request hrequest session hm =>
        hm.trans (hstep request hrequest session)) ⟨fun _ => rfl, rfl⟩ hep
    have hafter := hstep ep.request hmem ep.before
    rw [← hepisode] at hafter
    exact hbefore.trans hafter

/-- A reading of 3 whose rule asks for five minutes, which is as long as readings are kept. -/
def patient (timestamp : String) : Request :=
  let request := Request.sample timestamp
  { request with submission := { request.submission with period := some 300 } }

/-- A run of three readings, of which only the second one comes with a rule that can be judged. -/
def patientRun : List Episode :=
  (standard .documents).episodes (.fresh fun _ => none)
    [patient "2024-05-01T10:00:00Z", .sample "2024-05-01T10:01:10Z",
      patient "2024-05-01T10:05:30Z"]

/-- The second reading fires, and the last one stays pending. -/
theorem period_of_judged_of_patientRun :
    ∃ ep ∈ patientRun, ∃ ep' ∈ patientRun, ∃ a a',
      (standard .documents).accept ep.request.submission ep.request.clock.received = .ok a ∧
      (standard .documents).accept ep'.request.submission ep'.request.clock.received = .ok a' ∧
      ep.kind? = some .fired ∧ ⟨0⟩ < a.rule.period ∧
      a.rule.period < (standard .documents).retention ∧
      (standard .documents).retention ≤ a'.rule.period ∧ ep'.kind? = some .pending ∧
      ep'.KeepsTo .documents [Key.history ep'.request.submission.device,
        Key.trail ep'.request.submission.device ep'.request.submission.trigger] := by
  have hretention : ⟨0⟩ ≤ (standard .documents).retention := by decide
  have hsecond : (patientRun[1]?.any fun ep => ep.kind? == some .fired &&
      ((standard .documents).accept ep.request.submission
        ep.request.clock.received).toOption.isSome) = true := by
    decide +kernel
  have hthird : (patientRun[2]?.any fun ep => ((standard .documents).accept ep.request.submission
      ep.request.clock.received).toOption.any fun a =>
        (standard .documents).retention ≤ a.rule.period &&
          (a.now.sub? (standard .documents).retention).isSome) = true := by
    decide +kernel
  obtain ⟨ep, hep, hshown⟩ := (Option.any_eq_true _ _).mp hsecond
  obtain ⟨hfired, haccepted⟩ := (Bool.and_eq_true _ _).mp hshown
  obtain ⟨a, ha⟩ := Option.isSome_iff_exists.mp haccepted
  obtain ⟨outcome, hresult, hkind⟩ := Episode.kind?_eq_some_iff.mp (eq_of_beq hfired)
  obtain ⟨ep', hep', hshown⟩ := (Option.any_eq_true _ _).mp hthird
  obtain ⟨a', ha', hshown⟩ := (Option.any_eq_true _ _).mp hshown
  obtain ⟨hlong, hcal⟩ := (Bool.and_eq_true _ _).mp hshown
  have hjudged := (period_of_judged (inMemory?_default .documents) hretention
    (List.mem_of_getElem? hep) (eq_ok_of_toOption ha)).1 outcome hresult (by rw [hkind]; nofun)
  have hwaits := (period_of_judged (inMemory?_default .documents) hretention
    (List.mem_of_getElem? hep') (eq_ok_of_toOption ha')).2.1 (.inr (of_decide_eq_true hlong))
  exact ⟨ep, List.mem_of_getElem? hep, ep', List.mem_of_getElem? hep', a, a',
    eq_ok_of_toOption ha, eq_ok_of_toOption ha', eq_of_beq hfired, hjudged.1, hjudged.2,
    of_decide_eq_true hlong,
    hwaits.2.1 Session.not_isFaulty_fresh (Option.isSome_iff_ne_none.mp hcal), hwaits.2.2⟩

end Evaluator

end TriggerWatch
