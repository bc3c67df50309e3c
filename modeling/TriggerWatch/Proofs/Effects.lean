import TriggerWatch.Proofs.Acceptance
import TriggerWatch.Proofs.Course
import TriggerWatch.Proofs.Episodes

/-!
# What an evaluation does to the stores

The result of an evaluation tells what it did. Store calls that meet a fault do nothing, and no step
is undone, so a failure names the step at which the effects end. Only the entry in the trail is not
told by a failure, for it may fail as well and then gives way to the earlier failure.

## Main definitions

- `Memory.View` — what the stores hold about a trigger of a device
- `Accepted.Makes` — what the steps up to the outcome make of it
- `Evaluator.Announces` — what the result of an evaluation tells about it
- `Memory.SameElsewhere` — nothing else is changed

## Main statements

- `Evaluator.evaluate_effects` — every evaluation does what its result tells
-/

namespace TriggerWatch

open Memory (Backing Change)

variable {b : Backing} {m m' : Memory}

namespace Memory

/-- What the stores hold about a trigger of a device, and all messages. -/
structure View where
  history : Option Json
  cooldown : Option Json
  reported : Option (Dict Json)
  trail : Option Json
  notices : List (String × String)

def view (b : Backing) (device trigger : String) (m : Memory) : View where
  history := m.document? (Key.history device)
  cooldown := m.document? (Key.cooldown device trigger)
  reported := m.reported? b device
  trail := m.document? (Key.trail device trigger)
  notices := m.notices

/-- Apart from the view of a trigger of a device, two states of the stores hold the same. -/
structure SameElsewhere (b : Backing) (device trigger : String) (m m' : Memory) : Prop where
  document? : ∀ key, key ≠ Key.history device → key ≠ Key.cooldown device trigger →
    key ≠ Key.trail device trigger → (b = .documents → key ≠ Key.shadow device) →
    m'.document? key = m.document? key
  reported? : ∀ other, other ≠ device → m'.reported? b other = m.reported? b other

variable (device trigger : String)

theorem view_putHistory (document : Json) :
    (m.enact b (.put (Key.history device) document)).view b device trigger =
      { m.view b device trigger with history := some document } := by
  simp [view, reported?_put, notices_enact, Change.notice?, Key.ne_of_kindLetter_ne]

theorem view_putCooldown (document : Json) :
    (m.enact b (.put (Key.cooldown device trigger) document)).view b device trigger =
      { m.view b device trigger with cooldown := some document } := by
  simp [view, reported?_put, notices_enact, Change.notice?, Key.ne_of_kindLetter_ne]

theorem view_putTrail (document : Json) :
    (m.enact b (.put (Key.trail device trigger) document)).view b device trigger =
      { m.view b device trigger with trail := some document } := by
  simp [view, reported?_put, notices_enact, Change.notice?, Key.ne_of_kindLetter_ne]

theorem view_post (other text : String) :
    (m.enact b (.post other text)).view b device trigger =
      { m.view b device trigger with
        notices := (m.view b device trigger).notices ++ [(other, text)] } := by
  simp [view, notices_enact, Change.notice?]

theorem view_updateChanges (attributes : Dict Json) :
    (m.enactAll b (m.updateChanges b device attributes)).view b device trigger =
      { m.view b device trigger with
        reported := some (((m.view b device trigger).reported.getD []).extend attributes) } := by
  have document {key : String} (h : key ≠ Key.shadow device) :
      (m.enactAll b (m.updateChanges b device attributes)).document? key = m.document? key :=
    document?_enactAll fun _ hmem => h (key_eq_of_mem_updateChanges hmem)
  have silent : (m.updateChanges b device attributes).filterMap Change.notice? = [] := by
    cases b <;> rfl
  simp only [view, reported?_updateChanges, notices_enactAll, silent, List.append_nil,
    document (Key.history_ne_shadow device device),
    document (Key.trail_ne_shadow device trigger device),
    document (Key.cooldown_ne_shadow device trigger device)]

theorem Evolves.view_eq {fx : List Change} (h : m.Evolves b fx m') :
    m'.view b device trigger = (m.enactAll b fx).view b device trigger := by
  simp only [view, h.document?_enacted, h.reported?_enacted, h.notices_eq, notices_enactAll]

end Memory

/-! ### The effects of a result -/

/-- What the steps of an accepted submission make of the view of its trigger, by what they came to.
The records become the history. If the trigger fired, the time of the reading also becomes its last
fire, its attributes are merged into the reported state, and one message is posted. A failed step
and those after it change nothing, except that a failed write into the reported state is
announced. -/
inductive Accepted.Makes (a : Accepted) (horizon : Instant) (m : Memory) (v : Memory.View) :
    Except (Stop EvaluationFailure) Outcome → Memory.View → Prop
  | quiet {outcome : Outcome} (hk : outcome.kind ≠ .fired) :
    Makes a horizon m v (.ok outcome) { v with history := some (.array (a.records horizon m)) }
  | fired {outcome : Outcome} {certainty : Float} (hk : outcome.kind = .fired)
    (hv : a.verdict horizon m = .satisfied certainty) :
    Makes a horizon m v (.ok outcome) { v with
      history := some (.array (a.records horizon m))
      cooldown := some (Cooldown.document a.now)
      reported := some ((v.reported.getD []).extend (a.attributes certainty))
      notices := v.notices ++
        [(a.reading.device, Firing.announcement a.rule.trigger certainty true)] }
  | historyFailed (cause : StoreFailure) :
    Makes a horizon m v (.error (.failed (.storeUnavailable .history cause))) v
  | cooldownFailed (cause : StoreFailure) :
    Makes a horizon m v (.error (.failed (.storeUnavailable .cooldown cause)))
      { v with history := some (.array (a.records horizon m)) }
  | stateFailed {certainty : Float} (cause : StoreFailure)
    (hv : a.verdict horizon m = .satisfied certainty)
    (herror : "Error:".toList <+: (Firing.announcement a.rule.trigger certainty false).toList) :
    Makes a horizon m v (.error (.failed (.storeUnavailable .state cause))) { v with
      history := some (.array (a.records horizon m))
      cooldown := some (Cooldown.document a.now)
      notices := v.notices ++
        [(a.reading.device, Firing.announcement a.rule.trigger certainty false)] }

/-- What the result of an evaluation tells about its effects on the view of its trigger, where its
steps up to the outcome came to the result `ran`. An outcome has been entered in the trail. Where
its entry failed, everything else of the outcome has happened. A failure of an earlier step may have
been entered or not. -/
inductive Evaluator.Announces (e : Evaluator Memory) (s : Submission) (recorded : Instant)
    (a : Accepted) (horizon : Instant) (m : Memory) (v : Memory.View)
    (ran : Except (Stop EvaluationFailure) Outcome) :
    Except (Stop EvaluationFailure) Outcome → Memory.View → Prop
  | entered {outcome : Outcome} {w : Memory.View} (h : a.Makes horizon m v (.ok outcome) w) :
    Announces e s recorded a horizon m v ran (.ok outcome)
      { w with trail := some (e.trailWith s (.ok outcome) recorded m) }
  | lost {outcome : Outcome} {w : Memory.View} (cause : StoreFailure) (hran : ran = .ok outcome)
    (h : a.Makes horizon m v (.ok outcome) w) :
    Announces e s recorded a horizon m v ran (.error (.failed (.storeUnavailable .trail cause))) w
  | failed {failure : EvaluationFailure} {w : Memory.View}
    (h : a.Makes horizon m v (.error (.failed failure)) w) :
    Announces e s recorded a horizon m v ran (.error (.failed failure)) w
  | failedEntered {failure : EvaluationFailure} {w : Memory.View}
    (h : a.Makes horizon m v (.error (.failed failure)) w) :
    Announces e s recorded a horizon m v ran (.error (.failed failure))
      { w with trail := some (e.trailWith s (.error failure) recorded m) }

theorem Firing.error_prefix_announcement (trigger : String) (certainty : Float) :
    "Error:".toList <+: (announcement trigger certainty false).toList := by
  have hmessage : "Error:".toList <+: "Error: Device failed to set reported state ".toList := by
    decide
  rw [announcement, if_neg Bool.false_ne_true, String.toList_append]
  exact hmessage.trans (List.prefix_append _ _)

/-! ### The changes of an accepted submission in its view -/

namespace Accepted

variable (a : Accepted)

theorem view_putHistory (horizon : Instant) (before : Memory) :
    (m.enact b (a.putHistory horizon before)).view b a.reading.device a.rule.trigger =
      { m.view b a.reading.device a.rule.trigger with
        history := some (.array (a.records horizon before)) } :=
  Memory.view_putHistory _ _ _

theorem view_putCooldown :
    (m.enact b a.putCooldown).view b a.reading.device a.rule.trigger =
      { m.view b a.reading.device a.rule.trigger with
        cooldown := some (Cooldown.document a.now) } :=
  Memory.view_putCooldown _ _ _

theorem view_announce (certainty : Float) (written : Bool) :
    (m.enact b (a.announce certainty written)).view b a.reading.device a.rule.trigger =
      { m.view b a.reading.device a.rule.trigger with
        notices := (m.view b a.reading.device a.rule.trigger).notices ++
          [(a.reading.device, Firing.announcement a.rule.trigger certainty written)] } :=
  Memory.view_post _ _ _ _

theorem view_fired (horizon : Instant) (certainty : Float) :
    (m.enactAll b (a.putHistory horizon m :: a.putCooldown ::
      (m.updateChanges b a.reading.device (a.attributes certainty) ++
        [a.announce certainty true]))).view b a.reading.device a.rule.trigger =
      { m.view b a.reading.device a.rule.trigger with
        history := some (.array (a.records horizon m))
        cooldown := some (Cooldown.document a.now)
        reported := some (((m.view b a.reading.device a.rule.trigger).reported.getD []).extend
          (a.attributes certainty))
        notices := (m.view b a.reading.device a.rule.trigger).notices ++
          [(a.reading.device, Firing.announcement a.rule.trigger certainty true)] } := by
  -- the update starts from what the first two changes made of the stores
  have update : ((m.enact b (a.putHistory horizon m)).enact b a.putCooldown).updateChanges b
        a.reading.device (a.attributes certainty) =
      m.updateChanges b a.reading.device (a.attributes certainty) :=
    (Memory.evolves_enactAll m [a.putHistory horizon m, a.putCooldown]).updateChanges_eq
      (by simp [putHistory, putCooldown, Key.ne_of_kindLetter_ne]) _
  rw [Memory.enactAll_cons, Memory.enactAll_cons, Memory.enactAll_append, ← update,
    Memory.enactAll_cons, Memory.enactAll_nil, view_announce, Memory.view_updateChanges,
    view_putCooldown, view_putHistory]

end Accepted

namespace Evaluator

variable {e : Evaluator Memory}

theorem Judges.makes {a : Accepted} {horizon : Instant}
    {ran : Except (Stop EvaluationFailure) Outcome} {fx : List Change} (h : Judges b e a m ran fx)
    (hh : a.now.sub? e.retention = some horizon) :
    a.Makes horizon m (m.view b a.reading.device a.rule.trigger) ran
      ((m.enactAll b fx).view b a.reading.device a.rule.trigger) := by
  have same {horizon' : Instant} (hs : a.now.sub? e.retention = some horizon') :
      horizon' = horizon := Option.some.inj (hs.symm.trans hh)
  cases h with
  | historyFailed cause hm => exact .historyFailed cause
  | offCalendar hs => cases hs.symm.trans hh
  | pending hs hv | below hs hv | suppressed hs hv hc =>
    cases same hs
    rw [Memory.enactAll_cons, Memory.enactAll_nil, a.view_putHistory]
    exact .quiet nofun
  | cooldownFailed cause hm hs hv =>
    cases same hs
    rw [Memory.enactAll_cons, Memory.enactAll_nil, a.view_putHistory]
    exact .cooldownFailed cause
  | stateFailed cause hm hs hv hc =>
    cases same hs
    rw [Memory.enactAll_cons, Memory.enactAll_cons, Memory.enactAll_cons, Memory.enactAll_nil,
      a.view_announce, a.view_putCooldown, a.view_putHistory]
    exact .stateFailed cause hv (Firing.error_prefix_announcement _ _)
  | fired hs hv hc =>
    cases same hs
    rw [a.view_fired]
    exact .fired rfl hv

theorem Enters.announces {s : Submission} {recorded : Instant} {a : Accepted} {horizon : Instant}
    {v : Memory.View} {ran r : Except (Stop EvaluationFailure) Outcome} {gx : List Change}
    (hx : Enters e s recorded ran m r gx) (hs : hasTrail s = true)
    (hi : a.Makes horizon m v ran (m'.view b s.device s.trigger)) :
    e.Announces s recorded a horizon m v ran r ((m'.enactAll b gx).view b s.device s.trigger) := by
  have put (result : Except EvaluationFailure Outcome) :
      (m'.enactAll b [e.putTrail s result recorded m]).view b s.device s.trigger =
        { m'.view b s.device s.trigger with
          trail := some (e.trailWith s result recorded m) } := Memory.view_putTrail _ _ _
  cases hx with
  | offCalendar => cases hi
  | unnamed h => rw [hs] at h; cases h
  | entered h => rw [put]; exact .entered hi
  | enteredFailure h => rw [put]; exact .failedEntered hi
  | missed hm h => exact .failed hi
  | lost cause hm h => exact .lost cause rfl hi

theorem Enters.mem {s : Submission} {recorded : Instant} {gx : List Change}
    {ran r : Except (Stop EvaluationFailure) Outcome} (h : Enters e s recorded ran m r gx)
    {c : Change} (hc : c ∈ gx) : ∃ document, c = .put (Key.trail s.device s.trigger) document := by
  cases h with
  | entered h => exact ⟨_, List.mem_singleton.mp hc⟩
  | enteredFailure h => exact ⟨_, List.mem_singleton.mp hc⟩
  | _ => cases hc

/-- An evaluation changes nothing but the view of its trigger. -/
theorem sameElsewhere {s : Submission} {recorded : Instant} {a : Accepted} {fx gx : List Change}
    {ran r : Except (Stop EvaluationFailure) Outcome} (hj : Judges b e a m ran fx)
    (hx : Enters e s recorded ran m r gx) (ev : m.Evolves b (fx ++ gx) m')
    (hdevice : a.reading.device = s.device) (htrigger : a.rule.trigger = s.trigger) :
    m.SameElsewhere b s.device s.trigger m' where
  document? key hhistory hcooldown htrail hshadow := by
    refine ev.document?_eq fun document hmem => ?_
    rcases List.mem_append.mp hmem with hmem | hmem
    · rcases hj.concerns _ hmem with hk | hk | ⟨hb, hk⟩
      · exact hhistory (hdevice ▸ hk)
      · exact hcooldown (hdevice ▸ htrigger ▸ hk)
      · exact hshadow hb (hdevice ▸ hk)
    · obtain ⟨_, hc⟩ := hx.mem hmem
      exact htrail (Change.put.inj hc).1
  reported? other hother := by
    refine ev.reported?_eq (fun document hmem => ?_) fun attributes hmem => ?_
    · rcases List.mem_append.mp hmem with hmem | hmem
      · rcases hj.concerns _ hmem with hk | hk | ⟨-, hk⟩
        · exact Key.ne_of_kindLetter_ne (by simp) hk
        · exact Key.ne_of_kindLetter_ne (by simp) hk
        · exact hother ((Key.shadow_inj hk).trans hdevice)
      · obtain ⟨_, hc⟩ := hx.mem hmem
        exact Key.ne_of_kindLetter_ne (by simp) (Change.put.inj hc).1
    · rcases List.mem_append.mp hmem with hmem | hmem
      · exact hother ((hj.concerns _ hmem).trans hdevice)
      · obtain ⟨_, hc⟩ := hx.mem hmem
        cases hc

/-- The result of an evaluation of an accepted submission tells its effects, on all stores and with
all faults. The horizon of the history has to lie in the calendar. -/
theorem evaluate_effects {settings : Settings.Evaluation} (he : inMemory? b settings = some e)
    {s : Submission} {clock : ClockReadings} {a : Accepted}
    (ha : e.accept s clock.received = .ok a) {horizon : Instant}
    (hh : a.now.sub? e.retention = some horizon) (session : Session Memory) :
    e.Announces s clock.recorded a horizon session.stores
        (session.stores.view b s.device s.trigger)
        ((e.run s clock.received).onSession session).1
        ((e.evaluate s clock).onSession session).1
        (((e.evaluate s clock).onSession session).2.stores.view b s.device s.trigger) ∧
      session.stores.SameElsewhere b s.device s.trigger
        ((e.evaluate s clock).onSession session).2.stores := by
  obtain ⟨fx, gx, hr, hx, ev⟩ := evaluate_course (isInMemory_of_inMemory? he) s clock session
  have hj := hr.judges ha
  have haccepts := ok_of_accept ha
  have hi := hj.makes hh
  rw [haccepts.device_eq, haccepts.trigger_eq] at hi
  rw [ev.view_eq, Memory.enactAll_append]
  exact ⟨hx.announces haccepts.hasTrail hi,
    sameElsewhere hj hx ev haccepts.device_eq haccepts.trigger_eq⟩

/-- A refused write into the reported state leaves a history, a last fire and one message. -/
theorem evaluate_effects_of_refused_write :
    ∃ (request : Request) (session : Session Memory) (a : Accepted) (horizon : Instant),
      ((standard .apart).episode session request).stop? =
        some (.failed (.storeUnavailable .state (.backend "down"))) ∧
      (standard .apart).Announces request.submission request.clock.recorded a horizon session.stores
        (session.stores.view .apart request.submission.device request.submission.trigger)
        (((standard .apart).run request.submission request.clock.received).onSession session).1
        (((standard .apart).evaluate request.submission request.clock).onSession session).1
        ((((standard .apart).evaluate request.submission request.clock).onSession
          session).2.stores.view .apart request.submission.device request.submission.trigger) := by
  have haccepted : (((standard .apart).accept (Request.sample "2024-05-01T10:01:10Z").submission
      (Request.sample "2024-05-01T10:01:10Z").clock.received).toOption.bind fun a =>
        a.now.sub? (standard .apart).retention).isSome = true := by decide +kernel
  obtain ⟨horizon, haccepted⟩ := Option.isSome_iff_exists.mp haccepted
  obtain ⟨a, ha, hh⟩ := Option.bind_eq_some_iff.mp haccepted
  exact ⟨.sample "2024-05-01T10:01:10Z",
    ((standard .apart).episode .refusing (.sample "2024-05-01T10:00:00Z")).after, a, horizon,
    by decide +kernel, (evaluate_effects (inMemory?_default .apart) (eq_ok_of_toOption ha) hh _).1⟩

end Evaluator

end TriggerWatch
