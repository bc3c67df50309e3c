import TriggerWatch.Proofs.ReportedState
import TriggerWatch.Proofs.StateStores

/-!
# What a fire leaves in the reported state

A fire that is written leaves its time in the reported state of its device, and the certainty of its
trigger beside it. The time stands under a name that a trigger may have as well. Of such a trigger
only the time is reported. Whatever the trigger, other attributes and other devices keep what they
report.

## Main definitions

- `Memory.shadowsTimed` — the store of reported state with a deadline or without one
- `Firing.Reports` — a reported state shows a fire on top of what was reported before it

## Main statements

- `Firing.fire_writes` — a fire is written as a whole or not at all
- `Firing.fire_reported`, `Firing.fire_reports` — what devices report after a fire
- `Firing.reports_of_simulates` — every store of reported state shows a fire in the same way
- `Evaluator.reports_of_fired` — an evaluation that fires reports its outcome in the same way
-/

namespace TriggerWatch

open Memory (Backing Change)

variable {b : Backing}

/-- The store of reported state in memory, with a deadline in milliseconds or without one. -/
def Memory.shadowsTimed (b : Backing) : Option Nat → Shadows Memory
  | none => Memory.shadows b
  | some limit => (Memory.shadows b).timed limit

/-- An update merges attributes into the reported state of its device alone. -/
theorem Memory.device_eq_of_mem_updateChanges {m : Memory} {device other : String}
    {attributes written : Dict Json}
    (h : .update other written ∈ m.updateChanges b device attributes) : other = device := by
  cases b with
  | apart => exact (Change.update.inj (List.mem_singleton.mp h)).1
  | documents =>
    rcases List.mem_cons.mp h with h | h
    · cases h
    · exact (Change.update.inj (List.mem_singleton.mp h)).1

namespace Firing

variable {device trigger : String} {certainty : Float} {now : Instant}

/-! ### The attributes of a fire -/

/-- A reported state shows a fire on top of what was reported before it: its time, the certainty
unless the trigger has the name of the time, and everything else as before. -/
structure Reports (trigger : String) (certainty : Float) (now : Instant)
    (before : Option (Dict Json)) (after : Dict Json) : Prop where
  time_eq : after.get? "timestamp" = some now.toJson
  certainty_iff : after.get? trigger = some (Json.ofFloat certainty) ↔ trigger ≠ "timestamp"
  others_eq : ∀ name, name ≠ trigger → name ≠ "timestamp" →
    after.get? name = before.bind (Dict.get? · name)

theorem toJson_ne_ofFloat (now : Instant) (certainty : Float) :
    now.toJson ≠ Json.ofFloat certainty := by
  rw [Json.ofFloat]
  split <;> exact nofun

/-- The time is written last. -/
theorem get?_written (trigger : String) (certainty : Float) (now : Instant) (name : String) :
    Dict.get? (attributes trigger certainty now) name =
      if "timestamp" = name then some now.toJson
      else if trigger = name then some (Json.ofFloat certainty) else none := by
  rw [attributes, Dict.get?_ofList]
  rfl

theorem reports_extend (before : Option (Dict Json)) : Reports trigger certainty now before
    ((before.getD []).extend (attributes trigger certainty now)) := by
  have hget (name : String) :
      Dict.get? ((before.getD []).extend (attributes trigger certainty now)) name =
        (if "timestamp" = name then some now.toJson
          else if trigger = name then some (Json.ofFloat certainty) else none).or
        ((before.getD []).get? name) := by
    have hsorted : (attributes trigger certainty now).IsSorted := Dict.isSorted_ofList _
    rw [Dict.get?_extend_of_isSorted hsorted, get?_written]
  refine ⟨?time_eq, ?certainty_iff, ?others_eq⟩
  case time_eq => rw [hget, if_pos rfl, Option.some_or]
  case certainty_iff =>
    rw [hget]
    by_cases htime : "timestamp" = trigger
    · simp [htime, toJson_ne_ofFloat]
    · simp [htime, Ne.symm htime]
  case others_eq =>
    intro name htrigger htime
    rw [hget, if_neg (Ne.symm htime), if_neg (Ne.symm htrigger), Option.none_or]
    cases before <;> rfl

/-! ### The write of a fire -/

/-- Merging attributes has its whole effect, or it fails and has none. -/
theorem update_behaves (limit : Option Nat) (device : String) (attributes : Dict Json) :
    Behaves b ((Memory.shadowsTimed b limit).update device attributes) fun m r fx =>
      (r = .ok () ∧ fx = m.updateChanges b device attributes) ∨
        (m.IsFaulty ∧ r ≠ .ok () ∧ fx = []) := by
  cases limit with
  | none =>
    refine (Memory.update_responds device attributes).mono fun m r fx h => ?_
    cases h with
    | answered => exact .inl ⟨rfl, rfl⟩
    | failed _ hm | unanswered hm => exact .inr ⟨hm, nofun, rfl⟩
  | some milliseconds =>
    refine (Memory.Responds.timed (Memory.update_responds device attributes) _ milliseconds).mono
      fun m r fx h => ?_
    cases h with
    | answered => exact .inl ⟨rfl, rfl⟩
    | failed _ hm => exact .inr ⟨hm, nofun, rfl⟩

/-- A fire is written as a whole, or it fails and leaves at most a message. -/
theorem fire_writes (limit : Option Nat) (device trigger : String) (certainty : Float)
    (now : Instant) :
    Behaves b (fire (Memory.shadowsTimed b limit) Memory.notifier device trigger certainty now)
      fun m r fx =>
        (r = .ok () ∧ fx = m.updateChanges b device (attributes trigger certainty now) ++
          [.post device (announcement trigger certainty true)]) ∨
        (m.IsFaulty ∧ r ≠ .ok () ∧ ∀ change ∈ fx, ∃ text, change = .post device text) := by
  refine (Behaves.bind (Behaves.attempt (update_behaves limit device _)) fun result =>
    announce_behaves (Memory.post_behaves device _) result).mono fun m r fx h => ?_
  rcases h with ⟨r', ⟨rfl, rfl⟩ | ⟨hm, -, rfl⟩, hr⟩ | ⟨⟨r', h, hr⟩, -, rfl, rfl⟩
  · cases hr
  · exact .inr ⟨hm, nofun, fun change hmem => absurd hmem List.not_mem_nil⟩
  · rcases h with ⟨rfl, rfl⟩ | ⟨hm, hne, rfl⟩
    · cases hr
      exact .inl ⟨rfl, rfl⟩
    · rcases r' with (cause | _ | _) | _
      · cases hr
        refine .inr ⟨hm, nofun, ?_⟩
        intro change hmem
        exact ⟨_, List.mem_singleton.mp hmem⟩
      · cases hr
      · cases hr
      · exact absurd rfl hne

/-- Where a fire is written, the attributes are merged into the reported state of its device. The
reported states of other devices stay, and all of them do where it fails. -/
theorem fire_reported (limit : Option Nat) (device trigger : String) (certainty : Float)
    (now : Instant) (s : Session Memory) :
    let ran := (fire (Memory.shadowsTimed b limit) Memory.notifier device trigger certainty
      now).onSession s
    (¬ s.stores.IsFaulty → ran.1 = .ok ()) ∧
    (ran.1 = .ok () → ran.2.stores.reported? b device =
      some (((s.stores.reported? b device).getD []).extend (attributes trigger certainty now))) ∧
    ∀ other, ran.1 ≠ .ok () ∨ other ≠ device →
      ran.2.stores.reported? b other = s.stores.reported? b other := by
  intro ran
  obtain ⟨fx, hwrites, ev⟩ := fire_writes limit device trigger certainty now s
  rcases hwrites with ⟨hok, rfl⟩ | ⟨hfaulty, hfailed, hposts⟩
  · refine ⟨fun _ => hok, ?_, ?_⟩
    · intro _
      refine (ev.reported?_enacted device).trans ?_
      rw [Memory.enactAll_append]
      exact (Memory.reported?_post device _ device).trans (Memory.reported?_updateChanges _ _)
    · intro other hother
      have hne : other ≠ device := hother.resolve_left (not_not_intro hok)
      refine ev.reported?_eq ?_ ?_
      · intro document hmem
        rcases List.mem_append.mp hmem with hmem | hmem
        · exact hne (Key.shadow_inj (Memory.key_eq_of_mem_updateChanges hmem))
        · cases List.mem_singleton.mp hmem
      · intro written hmem
        rcases List.mem_append.mp hmem with hmem | hmem
        · exact hne (Memory.device_eq_of_mem_updateChanges hmem)
        · cases List.mem_singleton.mp hmem
  · refine ⟨fun hsound => absurd hfaulty hsound, fun hok => absurd hok hfailed, ?_⟩
    intro other _
    refine ev.reported?_eq ?_ ?_
    · intro document hmem
      obtain ⟨text, hc⟩ := hposts _ hmem
      cases hc
    · intro written hmem
      obtain ⟨text, hc⟩ := hposts _ hmem
      cases hc

/-- After a fire that is written its device reports the time, the certainty of the trigger unless the
trigger has the name of the time, and everything else as before; other devices report what they
did. Without faults every fire is written, and one that is not leaves all reported states. -/
theorem fire_reports (limit : Option Nat) (device trigger : String) (certainty : Float)
    (now : Instant) (s : Session Memory) :
    let ran := (fire (Memory.shadowsTimed b limit) Memory.notifier device trigger certainty
      now).onSession s
    (¬ s.stores.IsFaulty → ran.1 = .ok ()) ∧
    (ran.1 = .ok () → ∃ after, ran.2.stores.reported? b device = some after ∧
      Reports trigger certainty now (s.stores.reported? b device) after) ∧
    ∀ other, ran.1 ≠ .ok () ∨ other ≠ device →
      ran.2.stores.reported? b other = s.stores.reported? b other := by
  intro ran
  obtain ⟨hsucceeds, hreported, hothers⟩ := fire_reported (b := b) limit device trigger certainty
    now s
  exact ⟨hsucceeds, fun hok => ⟨_, hreported hok, reports_extend _⟩, hothers⟩

theorem fire_reports_of_fresh : ∃ after,
    ((fire (Memory.shadowsTimed .documents (some 5000)) Memory.notifier "boiler" "low" 0.8
      .earliest).onSession (.fresh fun _ => none)).2.stores.reported? .documents "boiler" =
        some after ∧
      after.get? "low" = some (Json.ofFloat 0.8) ∧
      after.get? "timestamp" = some Instant.earliest.toJson := by
  obtain ⟨hsucceeds, hreports, -⟩ := fire_reports (b := .documents) (some 5000) "boiler" "low" 0.8
    .earliest (.fresh fun _ => none)
  obtain ⟨after, hafter, hshown⟩ := hreports (hsucceeds Session.not_isFaulty_fresh)
  exact ⟨after, hafter, hshown.certainty_iff.mpr (by decide), hshown.time_eq⟩

/-- A fire is reported in the same way by every store that keeps the reported state of devices. -/
theorem reports_of_simulates {σ : Type} {shadows : Shadows σ}
    {reports : σ → (String → Option (Dict Json)) → Prop} {fits : Dict Json → Prop}
    (h : shadows.Simulates reports fits) {s : Session σ} {view : String → Option (Dict Json)}
    (hs : reports s.stores view)
    (hfits : fits (Shadows.merged view device (attributes trigger certainty now))) :
    ∃ after t,
      (fire shadows Notifier.silent device trigger certainty now).onSession s = (.ok (), t) ∧
      Reports trigger certainty now (view device) after ∧
      reports t.stores fun other => if device = other then some after else view other := by
  obtain ⟨t, hupdate, ht⟩ := h.update device (attributes trigger certainty now) hs hfits
  have hattempt : (Action.attempt (shadows.update device (attributes trigger certainty now)) :
      Action σ StoreFailure (Except StoreFailure Unit)).onSession s = (.ok (.ok ()), t) := by
    rw [Action.onSession_attempt, hupdate]
    rfl
  exact ⟨_, t, (Action.onSession_bind_ok hattempt).trans rfl, reports_extend (view device), ht⟩

end Firing

/-! ### Evaluations that fire -/

namespace Evaluator

variable {e : Evaluator Memory}

/-- On stores without faults an evaluation that fires reports the certainty of its outcome and the
time of its reading. -/
theorem reports_of_fired (he : e.IsInMemory b) {session : Session Memory}
    (hm : ¬ session.stores.IsFaulty) {request : Request}
    (hk : (e.episode session request).kind? = some .fired) :
    ∃ fire after, (e.episode session request).fire? = some fire ∧
      (e.episode session request).after.stores.reported? b request.submission.device =
        some after ∧
      Firing.Reports fire.trigger fire.certainty fire.now
        (session.stores.reported? b request.submission.device) after := by
  obtain ⟨hsome, hreported⟩ := reported?_episode_self he hm request
  obtain ⟨fire, hfire⟩ := Option.isSome_iff_exists.mp (hsome hk)
  rw [hfire] at hreported
  exact ⟨fire, _, hfire, hreported, Firing.reports_extend _⟩

/-- Readings with a trigger that has the name of the time. The second one fires. -/
def namesakes : List Request :=
  ["2024-05-01T10:00:00Z", "2024-05-01T10:01:10Z"].map fun timestamp => {
    Request.sample timestamp with
    submission := { (Request.sample timestamp).submission with trigger := "timestamp" } }

/-- A trigger may have the name of the time. It then fires, and its certainty is not reported. -/
theorem certainty_lost_of_namesakes :
    (∀ request ∈ namesakes, ∃ r, request.submission.rule = .ok r ∧ r.trigger = "timestamp") ∧
    ((standard .documents).episodes (.fresh fun _ => none) namesakes).map Episode.kind? =
      [some .pending, some .fired] ∧
    (((standard .documents).final (.fresh fun _ => none) namesakes).stores.reported? .documents
      "boiler").map (List.map fun p => (p.1, p.2.string?)) =
        some [("timestamp", some "2024-05-01T10:01:10.000000Z")] ∧
    ¬ ∀ (submission : Submission) (r : Rule) (device : String) (certainty : Float) (now : Instant)
      (s : Session Memory), submission.rule = .ok r →
      let ran := (Firing.fire Memory.shadowStore Memory.notifier device r.trigger certainty
        now).onSession s
      ran.1 = .ok () → ∃ after, ran.2.stores.reported? .apart device = some after ∧
        after.get? r.trigger = some (Json.ofFloat certainty) := by
  have hrules : ∀ request ∈ namesakes,
      ∃ r, request.submission.rule = .ok r ∧ r.trigger = "timestamp" := by
    have hnames : ∀ request ∈ namesakes, request.submission.rule.toOption.isSome = true ∧
        request.submission.trigger = "timestamp" := by decide +kernel
    intro request hrequest
    obtain ⟨hsome, hname⟩ := hnames request hrequest
    obtain ⟨r, hr⟩ := Option.isSome_iff_exists.mp hsome
    have hrule := eq_ok_of_toOption hr
    exact ⟨r, hrule, (Submission.ok_of_rule hrule).trigger_eq.trans hname⟩
  refine ⟨hrules, by decide +kernel, by decide +kernel, ?_⟩
  intro h
  obtain ⟨r, hrule, hname⟩ := hrules _ List.mem_cons_self
  obtain ⟨hsucceeds, hreported, -⟩ := Firing.fire_reported (b := .apart) none "boiler" r.trigger 1
    .earliest (.fresh fun _ => none)
  have hok := hsucceeds Session.not_isFaulty_fresh
  obtain ⟨after, hafter, hcertainty⟩ := h _ r "boiler" 1 .earliest _ hrule hok
  obtain rfl := Option.some.inj ((hreported hok).symm.trans hafter)
  exact (Firing.reports_extend _).certainty_iff.mp hcertainty hname

end Evaluator

end TriggerWatch
