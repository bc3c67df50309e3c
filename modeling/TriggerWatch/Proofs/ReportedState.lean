import Mathlib.Data.List.Induction
import TriggerWatch.Proofs.Dictionaries
import TriggerWatch.Proofs.Isolation

/-!
# What a device reports

Each fire merges two attributes into the reported state of its device: its trigger with the
certainty of the outcome, and the time of the reading. Nothing else is ever merged. On stores
without faults the reported state after a run is therefore what the fires of the device have made of
it, the last one of each trigger and the last one of all.

## Main definitions

- `Episode.Fire`, `Episode.fire?` — what an episode that fired tells of itself
- `Episode.firesOn` — the fires of a device
- `Firing.reportedAfter` — the reported state after fires

## Main statements

- `Evaluator.reported?_episode` — an episode merges its fire or nothing
- `Evaluator.reported_of_episodes` — the reported state after a run
-/

namespace TriggerWatch

open Memory (Backing Change Responds)

variable {b : Backing}

/-! ### Fires -/

/-- What an episode that fired tells of itself. -/
structure Episode.Fire where
  trigger : String
  certainty : Float
  now : Instant

namespace Episode

/-- The fire of an episode: the certainty is that of its outcome and the time that of its
reading. -/
def fire? (ep : Episode) : Option Fire :=
  match ep.result, ep.request.time with
  | .ok outcome, .ok now =>
    if outcome.kind = .fired then
      outcome.certainty.map fun certainty => ⟨ep.request.submission.trigger, certainty, now⟩
    else none
  | _, _ => none

def firesOn (device : String) (eps : List Episode) : List Fire :=
  (eps.filter fun ep => ep.request.submission.device == device).filterMap fire?

theorem fire?_eq_none {ep : Episode} (h : ep.kind? ≠ some .fired) : ep.fire? = none := by
  rw [fire?]
  split
  · next outcome now hresult htime =>
    refine if_neg ?_
    intro hk
    exact h (kind?_eq_some_iff.mpr ⟨outcome, hresult, hk⟩)
  · rfl

theorem firesOn_append (device : String) (eps eps' : List Episode) :
    firesOn device (eps ++ eps') = firesOn device eps ++ firesOn device eps' := by
  rw [firesOn, List.filter_append, List.filterMap_append]
  rfl

theorem firesOn_singleton (ep : Episode) :
    firesOn ep.request.submission.device [ep] = ep.fire?.toList := by
  have hself : [ep].filter (fun x => x.request.submission.device ==
      ep.request.submission.device) = [ep] := List.filter_cons_of_pos (beq_self_eq_true _)
  rw [firesOn, hself, filterMap_cons_eq_append]
  exact List.append_nil _

theorem trigger_of_mem_firesOn {device : String} {eps : List Episode} {fire : Fire}
    (h : fire ∈ firesOn device eps) : ∃ ep ∈ eps, ep.request.submission.device = device ∧
      ep.request.submission.trigger = fire.trigger := by
  obtain ⟨ep, hep, hfire⟩ := List.mem_filterMap.mp h
  obtain ⟨hep, hd⟩ := List.mem_filter.mp hep
  refine ⟨ep, hep, eq_of_beq hd, ?_⟩
  rw [fire?] at hfire
  split at hfire
  · split at hfire
    · obtain ⟨certainty, -, rfl⟩ := Option.map_eq_some_iff.mp hfire
      rfl
    · cases hfire
  · cases hfire

end Episode

namespace Firing

open Episode (Fire)

/-- The reported state after fires. -/
def reportedAfter (reported : Option (Dict Json)) (fires : List Fire) : Option (Dict Json) :=
  fires.foldl (fun reported fire =>
    some ((reported.getD []).extend (attributes fire.trigger fire.certainty fire.now))) reported

theorem reportedAfter_append (reported : Option (Dict Json)) (fires fires' : List Fire) :
    reportedAfter reported (fires ++ fires') =
      reportedAfter (reportedAfter reported fires) fires' := List.foldl_append

theorem get?_attributes {trigger : String} (h : trigger ≠ "timestamp") (certainty : Float)
    (now : Instant) (name : String) :
    Dict.get? (attributes trigger certainty now).reverse name =
      if "timestamp" = name then some now.toJson
      else if trigger = name then some (Json.ofFloat certainty) else none := by
  have htwo : attributes trigger certainty now =
      [("timestamp", now.toJson), (trigger, Json.ofFloat certainty)] ∨
      attributes trigger certainty now =
        [(trigger, Json.ofFloat certainty), ("timestamp", now.toJson)] := by
    simp only [attributes, Dict.ofList, Dict.insertAll, List.foldl_cons, List.foldl_nil,
      Dict.insert, if_neg h]
    split
    · exact .inl rfl
    · exact .inr rfl
  rcases htwo with h' | h' <;> rw [h'] <;> by_cases hname : "timestamp" = name
  · subst hname
    simp [Dict.get?_cons, h]
  · simp [Dict.get?_cons, hname]
  · subst hname
    simp [Dict.get?_cons]
  · simp [Dict.get?_cons, hname]

/-- The attributes after fires are those of the last fire of each trigger and the time of the last
fire of all. -/
theorem reportedAfter_none {fires : List Fire} (h : ∀ fire ∈ fires, fire.trigger ≠ "timestamp") :
    (reportedAfter none fires = none ↔ fires = []) ∧
    ((reportedAfter none fires).getD []).IsSorted ∧
    ∀ name, Dict.get? ((reportedAfter none fires).getD []) name =
      if "timestamp" = name then fires.getLast?.map fun fire => fire.now.toJson
      else (fires.filter fun fire => fire.trigger == name).getLast?.map fun fire =>
        Json.ofFloat fire.certainty := by
  induction fires using List.reverseRecOn with
  | nil => exact ⟨iff_of_true rfl rfl, Dict.isSorted_nil, fun name => by simp [reportedAfter]⟩
  | append_singleton fires fire ih =>
    obtain ⟨-, hsorted, hget⟩ := ih fun f hf => h f (List.mem_append_left _ hf)
    have hfire : fire.trigger ≠ "timestamp" := h fire (List.mem_append_right _ List.mem_cons_self)
    have hlast : reportedAfter none (fires ++ [fire]) =
        some (((reportedAfter none fires).getD []).extend
          (attributes fire.trigger fire.certainty fire.now)) := reportedAfter_append _ _ _
    rw [hlast, Option.getD_some]
    refine ⟨iff_of_false nofun (by simp), Dict.isSorted_extend hsorted _, ?_⟩
    intro name
    rw [Dict.get?_extend, get?_attributes hfire, hget, List.getLast?_append, List.filter_append,
      List.getLast?_append]
    by_cases htime : "timestamp" = name
    · simp [htime]
    · by_cases htrigger : fire.trigger = name
      · simp [htime, htrigger]
      · simp [htime, htrigger]

end Firing

/-! ### One episode -/

namespace Evaluator

variable {e : Evaluator Memory} {m m' : Memory}

/-- The entry in a trail leaves what devices report. -/
theorem Enters.reported?_eq {s : Submission} {recorded : Instant} {gx : List Change}
    {ran r : Except (Stop EvaluationFailure) Outcome} (h : Enters e s recorded ran m r gx)
    (m' : Memory) (device : String) :
    (m'.enactAll b gx).reported? b device = m'.reported? b device := by
  refine Memory.reported?_enactAll ?_ ?_
  · intro document hmem
    obtain ⟨_, hc⟩ := h.mem hmem
    exact Key.trail_ne_shadow _ _ _ (Change.put.inj hc).1.symm
  · intro attributes hmem
    obtain ⟨_, hc⟩ := h.mem hmem
    cases hc

/-- On stores without faults an accepted submission reports its fire or nothing. -/
theorem Judges.reported?_enactAll {a : Accepted} {r : Except (Stop EvaluationFailure) Outcome}
    {fx : List Change} (h : Judges b e a m r fx) (hm : ¬ m.IsFaulty) :
    ((∀ outcome, r = .ok outcome → outcome.kind ≠ .fired) ∧
      (m.enactAll b fx).reported? b a.reading.device = m.reported? b a.reading.device) ∨
    ∃ outcome certainty, r = .ok outcome ∧ outcome.kind = .fired ∧
      outcome.certainty = some certainty ∧
      (m.enactAll b fx).reported? b a.reading.device =
        some (((m.reported? b a.reading.device).getD []).extend
          (Firing.attributes a.rule.trigger certainty a.now)) := by
  have quiet (horizon : Instant) :
      (m.enactAll b [a.putHistory horizon m]).reported? b a.reading.device =
        m.reported? b a.reading.device :=
    Memory.reported?_enactAll (by simp [Accepted.putHistory, Key.ne_of_kindLetter_ne])
      (by simp [Accepted.putHistory])
  cases h with
  | historyFailed cause hf | cooldownFailed cause hf | stateFailed cause hf => exact absurd hf hm
  | offCalendar hs =>
    refine .inl ⟨?_, rfl⟩
    rintro _ ⟨⟩
  | pending hs hv | below hs hv | suppressed hs hv hc =>
    refine .inl ⟨?_, quiet _⟩
    rintro _ ⟨⟩ hfired
    cases hfired
  | @fired _ horizon certainty hs hv hc =>
    refine .inr ⟨_, certainty, rfl, rfl, (Rule.covered_of_satisfied hv).2.1, ?_⟩
    exact congrArg Memory.View.reported (a.view_fired horizon certainty)

/-- On stores without faults an episode merges its fire into what its device reports, or nothing,
and it tells its fire if it fired. -/
theorem reported?_episode_self (he : e.IsInMemory b) {session : Session Memory}
    (hm : ¬ session.stores.IsFaulty) (request : Request) :
    ((e.episode session request).kind? = some .fired →
      (e.episode session request).fire?.isSome) ∧
    (e.episode session request).after.stores.reported? b request.submission.device =
      Firing.reportedAfter (session.stores.reported? b request.submission.device)
        (e.episode session request).fire?.toList := by
  obtain ⟨fx, gx, hruns, henters, ev⟩ :=
    evaluate_course he request.submission request.clock session
  have hresult : (e.episode session request).result =
      ((e.run request.submission request.clock.received).onSession session).1 :=
    (henters.eq_trailChanges hm).1
  have hreported : (e.episode session request).after.stores.reported? b
      request.submission.device =
      (session.stores.enactAll b fx).reported? b request.submission.device := by
    refine (ev.reported?_enacted _).trans ?_
    rw [Memory.enactAll_append, henters.reported?_eq]
  have unfired (h : (e.episode session request).kind? ≠ some .fired)
      (hsame : (session.stores.enactAll b fx).reported? b request.submission.device =
        session.stores.reported? b request.submission.device) :
      ((e.episode session request).kind? = some .fired →
        (e.episode session request).fire?.isSome) ∧
      (e.episode session request).after.stores.reported? b request.submission.device =
        Firing.reportedAfter (session.stores.reported? b request.submission.device)
          (e.episode session request).fire?.toList := by
    rw [Episode.fire?_eq_none h, hreported, hsame]
    exact ⟨fun hf => absurd hf h, rfl⟩
  rw [← hresult] at hruns
  generalize hr : (e.episode session request).result = r at hruns
  cases hruns with
  | refused ha =>
    refine unfired ?_ rfl
    rw [Episode.kind?, hr]
    intro hfired
    cases hfired
  | @accepted _ a _ _ ha hj =>
    have haccepts := ok_of_accept ha
    rcases hj.reported?_enactAll hm with ⟨hquiet, hsame⟩ | ⟨outcome, certainty, rfl, hk, hc, hsame⟩
    · refine unfired ?_ (haccepts.device_eq ▸ hsame)
      intro hf
      obtain ⟨outcome, ho, hk⟩ := Episode.kind?_eq_some_iff.mp hf
      exact hquiet outcome (hr.symm.trans ho) hk
    · have htime : (e.episode session request).request.time = .ok a.now := haccepts.time
      have hfire : (e.episode session request).fire? =
          some ⟨request.submission.trigger, certainty, a.now⟩ := by
        simp only [Episode.fire?, hr, htime, if_pos hk, hc, Option.map_some]
        rfl
      rw [haccepts.device_eq, haccepts.trigger_eq] at hsame
      rw [hfire, hreported, hsame]
      exact ⟨fun _ => rfl, rfl⟩

theorem reported?_episode (he : e.IsInMemory b) {session : Session Memory}
    (hm : ¬ session.stores.IsFaulty) (request : Request) (device : String) :
    (e.episode session request).after.stores.reported? b device =
      Firing.reportedAfter (session.stores.reported? b device)
        (Episode.firesOn device [e.episode session request]) := by
  by_cases hd : request.submission.device = device
  · subst hd
    have hself := (reported?_episode_self he hm request).2
    rwa [← Episode.firesOn_singleton] at hself
  · have hnone : Episode.firesOn device [e.episode session request] = [] := by
      have hrequest : (e.episode session request).request = request := rfl
      simp [Episode.firesOn, hrequest, hd]
    rw [hnone]
    exact (agreeOn_episode he session (Ne.symm hd)).reported?.symm

/-! ### Whole runs -/

theorem reported?_final (he : e.IsInMemory b) {start : Session Memory}
    (hs : ¬ start.stores.IsFaulty) (requests : List Request) (device : String) :
    (e.final start requests).stores.reported? b device =
      Firing.reportedAfter (start.stores.reported? b device)
        (Episode.firesOn device (e.episodes start requests)) := by
  induction requests generalizing start with
  | nil => rfl
  | cons request rest ih =>
    have hsplit : e.episodes start (request :: rest) =
        [e.episode start request] ++ e.episodes (e.episode start request).after rest := rfl
    rw [hsplit, Episode.firesOn_append, Firing.reportedAfter_append,
      ← reported?_episode he hs request device]
    exact ih (not_isFaulty_episode he hs request)

/-- Every episode of a run without faults that fired tells its fire. -/
theorem isSome_fire?_of_mem_episodes (he : e.IsInMemory b) {start : Session Memory}
    (hs : ¬ start.stores.IsFaulty) {requests : List Request} {ep : Episode}
    (hep : ep ∈ e.episodes start requests) (hk : ep.kind? = some .fired) : ep.fire?.isSome := by
  have hbefore : ¬ ep.before.stores.IsFaulty :=
    episodes_invariant (P := fun m => ¬ m.IsFaulty)
      (fun request _ s h => not_isFaulty_episode he h request) hs hep
  rw [(mem_episodes hep).2] at hk ⊢
  exact (reported?_episode_self he hbefore ep.request).1 hk

theorem getReported_responds (device : String) :
    Behaves b ((Memory.shadows b).get device) (Responds (·.reported? b device) fun _ => []) := by
  cases b with
  | apart =>
    exact Responds.bind (Memory.reach_responds _)
      (fun _ => Memory.stores_responds (·.reported? .apart device))
      fun he => ⟨he.reported?_eq (by simp) (by simp), rfl⟩
  | documents =>
    exact Responds.bind (Memory.reach_responds _)
      (fun _ => Responds.map (fun document : Option Json => document.bind Shadow.reported?)
        (Memory.getDocument_responds (Key.shadow device)))
      fun he => ⟨congrArg (·.bind Shadow.reported?) (he.document?_eq (by simp)), rfl⟩

/-- A call for the reported state of a device answers with it. -/
theorem onSession_reported {settings : Settings.Evaluation} (he : inMemory? b settings = some e)
    {s : Session Memory} (hs : ¬ s.stores.IsFaulty) (device : String) :
    ((e.reported device).onSession s).1 = .ok (s.stores.reported? b device) := by
  obtain ⟨retention, minCooldown, rfl⟩ := eq_of_inMemory? he
  obtain ⟨fx, ⟨r, hr, hran⟩, -⟩ := inStep_behaves .state
    (Responds.timed (getReported_responds (b := b) device) .getState settings.storeTimeout) s
  cases hr with
  | answered => exact hran
  | failed cause hm => exact absurd hm hs

/-- After a run without faults a device that had reported nothing reports the time of the last fire
of its triggers and, for each trigger that fired, the certainty of the outcome of its last fire.
There is nothing else in its reported state, and it has none if no trigger fired. -/
theorem reported_of_episodes {settings : Settings.Evaluation} (he : inMemory? b settings = some e)
    {start : Session Memory} (hs : ¬ start.stores.IsFaulty) {requests : List Request}
    {device : String} (hempty : start.stores.reported? b device = none)
    (hname : ∀ request ∈ requests, request.submission.device = device →
      request.submission.trigger ≠ "timestamp") :
    let fires := Episode.firesOn device (e.episodes start requests)
    ∃ reported, ((e.reported device).onSession (e.final start requests)).1 = .ok reported ∧
      (∀ ep ∈ e.episodes start requests, ep.kind? = some .fired ↔ ep.fire?.isSome) ∧
      (reported = none ↔ ∀ ep ∈ e.episodes start requests,
        ep.request.submission.device = device → ep.kind? ≠ some .fired) ∧
      ∀ attributes, reported = some attributes → attributes.IsSorted ∧
        attributes.get? "timestamp" = fires.getLast?.map (fun fire => .string fire.now.format) ∧
        ∀ name, name ≠ "timestamp" → attributes.get? name =
          (fires.filter fun fire => fire.trigger == name).getLast?.map fun fire =>
            Json.ofFloat fire.certainty := by
  intro fires
  have hin := isInMemory_of_inMemory? he
  have hfires : ∀ ep ∈ e.episodes start requests, ep.kind? = some .fired ↔ ep.fire?.isSome := by
    intro ep hep
    refine ⟨isSome_fire?_of_mem_episodes hin hs hep, ?_⟩
    intro hfire
    by_contra hk
    rw [Episode.fire?_eq_none hk] at hfire
    cases hfire
  have hnames : ∀ fire ∈ fires, fire.trigger ≠ "timestamp" := by
    intro fire hfire
    obtain ⟨ep, hep, hd, ht⟩ := Episode.trigger_of_mem_firesOn hfire
    rw [← ht]
    exact hname _ (mem_episodes hep).1 hd
  obtain ⟨hnone, hsorted, hget⟩ := Firing.reportedAfter_none hnames
  have hreported := reported?_final hin hs requests device
  rw [hempty] at hreported
  refine ⟨_, onSession_reported he (not_isFaulty_final hin hs requests) device, hfires, ?_, ?_⟩
  · rw [hreported]
    refine hnone.trans (List.filterMap_eq_nil_iff.trans ?_)
    constructor
    · intro hquiet ep hep hd hk
      have hfire := hquiet ep (List.mem_filter.mpr ⟨hep, beq_iff_eq.mpr hd⟩)
      rw [hfires ep hep, hfire] at hk
      cases hk
    · intro hquiet ep hep
      obtain ⟨hep, hd⟩ := List.mem_filter.mp hep
      exact Episode.fire?_eq_none (hquiet ep hep (eq_of_beq hd))
  · intro attributes hattributes
    rw [hreported] at hattributes
    rw [hattributes, Option.getD_some] at hsorted hget
    refine ⟨hsorted, (hget "timestamp").trans (if_pos rfl), ?_⟩
    intro name hne
    exact (hget name).trans (if_neg (Ne.symm hne))

/-- Readings of a device with two triggers, which fire in turn, and one of another device. The
fourth is held back and the last one refused. -/
def alternating : List Request :=
  [("boiler", "low", "2024-05-01T10:00:00Z"), ("boiler", "low", "2024-05-01T10:01:10Z"),
    ("boiler", "cold", "2024-05-01T10:01:20Z"), ("boiler", "low", "2024-05-01T10:01:30Z"),
    ("pump", "low", "2024-05-01T10:00:00Z"), ("boiler", "low", "2024-05-01T10:02:15Z"),
    ("boiler", "cold/low", "2024-05-01T10:02:20Z")].map fun (device, trigger, timestamp) => {
      Request.sample timestamp with
      submission := { (Request.sample timestamp).submission with device, trigger } }

theorem reported_of_alternating :
    let final := (standard .documents).final (.fresh fun _ => none) alternating
    (∃ attributes,
      (((standard .documents).reported "boiler").onSession final).1 = .ok (some attributes) ∧
      attributes.IsSorted ∧
      (Dict.get? attributes "timestamp").bind Json.string? = some "2024-05-01T10:02:15.000000Z" ∧
      (Dict.get? attributes "low").isSome ∧ (Dict.get? attributes "cold").isSome) ∧
    (((standard .documents).reported "pump").onSession final).1 = .ok none := by
  intro final
  have hnames (device : String) : ∀ request ∈ alternating,
      request.submission.device = device → request.submission.trigger ≠ "timestamp" := by
    have hall : ∀ request ∈ alternating, request.submission.trigger ≠ "timestamp" := by
      decide +kernel
    exact fun request hr _ => hall request hr
  obtain ⟨boiler, hboiler, -, hnone, hsome⟩ := reported_of_episodes
    (inMemory?_default .documents) Session.not_isFaulty_fresh rfl (hnames "boiler")
  obtain ⟨pump, hpump, -, hquiet, -⟩ := reported_of_episodes
    (inMemory?_default .documents) Session.not_isFaulty_fresh rfl (hnames "pump")
  refine ⟨?_, ?_⟩
  · have hfired : boiler ≠ none := mt hnone.mp (by decide +kernel)
    obtain ⟨attributes, rfl⟩ := Option.ne_none_iff_exists'.mp hfired
    obtain ⟨hsorted, htime, htrigger⟩ := hsome attributes rfl
    refine ⟨attributes, hboiler, hsorted, ?_, ?_, ?_⟩
    · rw [htime]
      decide +kernel
    · rw [htrigger "low" (by decide)]
      decide +kernel
    · rw [htrigger "cold" (by decide)]
      decide +kernel
  · rw [hpump, hquiet.mpr (by decide +kernel)]

end Evaluator

end TriggerWatch
