import TriggerWatch.Proofs.Calls
import TriggerWatch.Proofs.Spacing

/-!
# What becomes of an announcement does not matter

A fire is announced after the attempt to write it into the reported state. The notifier may accept
the message or not; the evaluation goes on in the same way, with the same calls. So two runs from
the same session whose notifiers differ in nothing but their answers are the same episode by
episode. In every episode the messages posted are those of the writes attempted, at most one of
each.

## Main definitions

- `Notifier.IsAttentive` — a notifier that keeps every message and answers somehow
- `Evaluator.notifying` — an evaluator with another notifier
- `Traces` — the attempts to write and the messages that an action leaves behind
- `Evaluator.TellsWrite` — changes with a message about their own write

## Main statements

- `Notifier.IsAttentive.evaluate_eq` — an evaluation is the same with any such notifier
- `Traces.bind` — the rule for actions in sequence
- `Evaluator.evaluate_traces` — every attempt to write is announced, and nothing else
- `Evaluator.delivery_ignored` — two runs with different answers, and what they announce
-/

namespace TriggerWatch

open Memory (Backing Call Change)

variable {ε ε' α β : Type} {b : Backing} {e : Evaluator Memory}

/-! ### Two notifiers -/

/-- The session after a message was posted. -/
def Session.posted (s : Session Memory) (device text : String) : Session Memory :=
  { s with stores :=
    { s.stores with notices := s.stores.notices ++ [(device, text)] }.note (.post device text) }

/-- A notifier that keeps every message. Whether it accepts a message may depend on anything. -/
def Notifier.IsAttentive (n : Notifier Memory) : Prop :=
  ∀ device text s, ∃ answer : Except DeliveryFailure Unit,
    (n.post device text).onSession s = (answer.mapError .failed, s.posted device text)

theorem Memory.isAttentive_notifier : notifier.IsAttentive := by
  intro device text s
  by_cases haccepted : s.stores.accepts s.stores.notices.length = true
  · refine ⟨.ok (), ?_⟩
    show (if s.stores.accepts s.stores.notices.length = true then pure () else
      Action.fail (.rejected 503 "") : Action Memory DeliveryFailure Unit).onSession _ = _
    rw [if_pos haccepted]
    rfl
  · refine ⟨.error (.rejected 503 ""), ?_⟩
    show (if s.stores.accepts s.stores.notices.length = true then pure () else
      Action.fail (.rejected 503 "") : Action Memory DeliveryFailure Unit).onSession _ = _
    rw [if_neg haccepted]
    rfl

/-- The evaluator with another notifier. -/
def Evaluator.notifying {σ : Type} (e : Evaluator σ) (n : Notifier σ) : Evaluator σ :=
  { e with notifier := n }

namespace Notifier.IsAttentive

variable {n n' : Notifier Memory} (hn : n.IsAttentive) (hn' : n'.IsAttentive)

include hn

/-- Posting a message in an attempt never stops. -/
theorem attempt_post (device text : String) (s : Session Memory) :
    ∃ answer : Except DeliveryFailure Unit,
      (Action.attempt (n.post device text) : Action Memory ε _).onSession s =
        (.ok answer, s.posted device text) := by
  obtain ⟨answer, hran⟩ := hn device text s
  refine ⟨answer, ?_⟩
  rw [Action.onSession_attempt, hran]
  cases answer <;> rfl

include hn'

theorem fire_eq (shadows : Shadows Memory) (device trigger : String) (certainty : Float)
    (now : Instant) :
    Firing.fire shadows n device trigger certainty now =
      Firing.fire shadows n' device trigger certainty now := by
  funext s
  show (Firing.fire shadows n device trigger certainty now).onSession s =
    (Firing.fire shadows n' device trigger certainty now).onSession s
  rcases hran : (Action.attempt (shadows.update device (Firing.attributes trigger certainty now)) :
      Action Memory StoreFailure _).onSession s with ⟨stop | result, t⟩
  · exact (Action.onSession_bind_error hran).trans (Action.onSession_bind_error hran).symm
  · -- the write comes first and is the same; what the post answers is dropped
    have hrest {m : Notifier Memory} (hm : m.IsAttentive) :
        (Firing.fire shadows m device trigger certainty now).onSession s =
          (Action.ofExcept result).onSession
            (t.posted device (Firing.announcement trigger certainty result.isOk)) := by
      obtain ⟨answer, hpost⟩ := hm.attempt_post (ε := StoreFailure) device
        (Firing.announcement trigger certainty result.isOk) t
      exact (Action.onSession_bind_ok hran).trans (Action.onSession_bind_ok hpost)
    rw [hrest hn, hrest hn']

/-- An evaluation is the same with any attentive notifier. -/
theorem evaluate_eq (e : Evaluator Memory) (s : Submission) (clock : ClockReadings) :
    (e.notifying n).evaluate s clock = (e.notifying n').evaluate s clock := by
  have hsettle (a : Accepted) (certainty : Float) :
      (e.notifying n).settle a certainty = (e.notifying n').settle a certainty := by
    simp only [Evaluator.settle, Evaluator.notifying, hn.fire_eq hn']
  have hconclude (a : Accepted) (v : Verdict) :
      (e.notifying n).conclude a v = (e.notifying n').conclude a v := by
    cases v with
    | pending => rfl
    | below certainty => rfl
    | satisfied certainty => exact hsettle a certainty
  have hjudge (a : Accepted) : (e.notifying n).judge a = (e.notifying n').judge a := by
    simp only [Evaluator.judge, hconclude]
    rfl
  have hrun (received : Instant) :
      (e.notifying n).run s received = (e.notifying n').run s received := by
    simp only [Evaluator.run, hjudge]
    rfl
  simp only [Evaluator.evaluate, hrun]
  rfl

theorem episodes_eq (e : Evaluator Memory) (start : Session Memory) (requests : List Request) :
    (e.notifying n).episodes start requests = (e.notifying n').episodes start requests := by
  induction requests generalizing start with
  | nil => rfl
  | cons request rest ih =>
    have hepisode : (e.notifying n).episode start request =
        (e.notifying n').episode start request := by
      rw [Evaluator.episode, Evaluator.episode, hn.evaluate_eq hn']
    rw [Evaluator.episodes, Evaluator.episodes, hepisode, ih]

end Notifier.IsAttentive

/-! ### Attempts to write and messages -/

/-- An attempt to write into the reported state. -/
def Memory.Call.isUpdate : Call → Bool
  | .updateReported _ => true
  | _ => false

/-- Every run of an action leaves behind attempts to write and messages that belong together. -/
def Traces (R : List Call → List (String × String) → Prop) (a : Action Memory ε α) : Prop :=
  ∀ s, ∃ calls posted,
    (a.onSession s).2.stores.link.calls = s.stores.link.calls ++ calls ∧
    (a.onSession s).2.stores.notices = s.stores.notices ++ posted ∧
    R (calls.filter Call.isUpdate) posted

/-- Neither attempts to write nor messages. -/
def IsQuiet (attempts : List Call) (posted : List (String × String)) : Prop :=
  attempts = [] ∧ posted = []

/-- One attempt to write for a device. -/
def Attempts (device : String) (attempts : List Call) (posted : List (String × String)) : Prop :=
  attempts = [.updateReported device] ∧ posted = []

/-- Every attempt to write has its message, on behalf of the same device. -/
def IsAnnounced (attempts : List Call) (posted : List (String × String)) : Prop :=
  attempts = posted.map fun notice => .updateReported notice.1

theorem IsQuiet.isAnnounced {attempts : List Call} {posted : List (String × String)}
    (h : IsQuiet attempts posted) : IsAnnounced attempts posted := by
  obtain ⟨rfl, rfl⟩ := h
  rfl

theorem IsQuiet.append {attempts attempts' : List Call} {posted posted' : List (String × String)}
    (h : IsQuiet attempts posted) (h' : IsQuiet attempts' posted') :
    IsQuiet (attempts ++ attempts') (posted ++ posted') := by
  obtain ⟨rfl, rfl⟩ := h
  exact h'

theorem IsAnnounced.append {attempts attempts' : List Call}
    {posted posted' : List (String × String)} (h : IsAnnounced attempts posted)
    (h' : IsAnnounced attempts' posted') :
    IsAnnounced (attempts ++ attempts') (posted ++ posted') := by
  rw [IsAnnounced] at *
  rw [h, h', List.map_append]

namespace Traces

variable {R R' R'' : List Call → List (String × String) → Prop}

theorem mono {a : Action Memory ε α} (h : Traces R a) (hr : ∀ {c p}, R c p → R' c p) :
    Traces R' a := by
  intro s
  obtain ⟨calls, posted, hcalls, hposted, htraces⟩ := h s
  exact ⟨calls, posted, hcalls, hposted, hr htraces⟩

theorem still {a : Action Memory ε α}
    (hcalls : ∀ s, (a.onSession s).2.stores.link.calls = s.stores.link.calls)
    (hnotices : ∀ s, (a.onSession s).2.stores.notices = s.stores.notices) : Traces IsQuiet a := by
  intro s
  refine ⟨[], [], ?_, ?_, rfl, rfl⟩
  · rw [hcalls, List.append_nil]
  · rw [hnotices, List.append_nil]

theorem ofExcept (r : Except ε α) : Traces IsQuiet (Action.ofExcept r) := by
  cases r <;> exact still (fun _ => rfl) fun _ => rfl

theorem inCalendar (x : Option α) : Traces IsQuiet (Action.inCalendar x : Action Memory ε α) := by
  cases x <;> exact still (fun _ => rfl) fun _ => rfl

theorem bind {a : Action Memory ε α} {f : α → Action Memory ε β} (ha : Traces R a)
    (hf : ∀ x, Traces R' (f x)) (hstop : ∀ {c p}, R c p → R'' c p)
    (hnext : ∀ {c p c' p'}, R c p → R' c' p' → R'' (c ++ c') (p ++ p')) :
    Traces R'' (a >>= f) := by
  intro s
  obtain ⟨calls, posted, hcalls, hposted, htraces⟩ := ha s
  rcases hran : a.onSession s with ⟨stop | x, t⟩
  · rw [hran] at hcalls hposted
    rw [Action.onSession_bind_error hran]
    exact ⟨calls, posted, hcalls, hposted, hstop htraces⟩
  · rw [hran] at hcalls hposted
    obtain ⟨calls', posted', hcalls', hposted', htraces'⟩ := hf x t
    rw [Action.onSession_bind_ok hran]
    refine ⟨calls ++ calls', posted ++ posted', ?_, ?_, ?_⟩
    · rw [hcalls', hcalls, List.append_assoc]
    · rw [hposted', hposted, List.append_assoc]
    · rw [List.filter_append]
      exact hnext htraces htraces'

theorem quiet {a : Action Memory ε α} {f : α → Action Memory ε β} (ha : Traces IsQuiet a)
    (hf : ∀ x, Traces IsQuiet (f x)) : Traces IsQuiet (a >>= f) :=
  ha.bind hf id IsQuiet.append

theorem announced {a : Action Memory ε α} {f : α → Action Memory ε β} (ha : Traces IsAnnounced a)
    (hf : ∀ x, Traces IsAnnounced (f x)) : Traces IsAnnounced (a >>= f) :=
  ha.bind hf id IsAnnounced.append

theorem attempt {a : Action Memory ε α} (ha : Traces R a) :
    Traces R (a.attempt : Action Memory ε' (Except ε α)) := by
  intro s
  rw [Action.onSession_attempt]
  exact ha s

theorem mapFailure {a : Action Memory ε α} (f : ε → ε') (ha : Traces R a) :
    Traces R (a.mapFailure f) := by
  intro s
  rw [Action.onSession_mapFailure]
  exact ha s

theorem within {a : Action Memory ε α} (milliseconds : Nat) (late : ε) (ha : Traces R a) :
    Traces R (a.within milliseconds late) := by
  intro s
  rw [(Action.onSession_within milliseconds late a s).2]
  exact ha { s with deadline := some (s.elapsed + milliseconds) }

end Traces

/-! ### Store calls -/

theorem Link.meet_traces {refused : String → ε} (fault : Option Fault) :
    Traces IsQuiet (meet refused fault : Action Memory ε Unit) := by
  have hmeet (s : Session Memory) :
      ((meet refused fault : Action Memory ε Unit).onSession s).2.stores = s.stores := by
    rcases fault with _ | _ | _ | milliseconds
    · rfl
    · rfl
    · rfl
    · simp only [meet, Action.wait, Action.ofStep, Action.onSession]
      split
      · rfl
      · split <;> rfl
  exact .still (fun s => by rw [hmeet]) fun s => by rw [hmeet]

namespace Memory

theorem reach_traces (call : Call) :
    Traces (fun attempts posted => attempts = [call].filter Call.isUpdate ∧ posted = [])
      (reach call) := by
  intro s
  have hmeet : Traces IsQuiet (Link.meet StoreFailure.backend s.stores.link.next) :=
    Link.meet_traces _
  obtain ⟨calls, posted, hcalls, hposted, hquiet, rfl⟩ :=
    hmeet { s with stores := { s.stores with link := s.stores.link.record call } }
  refine ⟨call :: calls, [], ?_, hposted, ?_, rfl⟩
  · exact hcalls.trans (List.append_assoc _ [call] calls)
  · rw [← List.singleton_append, List.filter_append, hquiet, List.append_nil]

theorem getDocument_traces (key : String) : Traces IsQuiet (documentStore.get key) :=
  (reach_traces (.get key)).quiet fun _ => .still (fun _ => rfl) fun _ => rfl

theorem putDocument_traces (key : String) (document : Json) :
    Traces IsQuiet (documentStore.put key document) :=
  (reach_traces (.put key)).quiet fun _ => .still (fun _ => rfl) fun _ => rfl

/-- A write is one attempt, whatever calls it is made of. -/
theorem update_traces (b : Backing) (device : String) (attributes : Dict Json) :
    Traces (Attempts device) ((shadows b).update device attributes) := by
  have hreach := reach_traces (.updateReported device)
  have happend {c c' : List Call} {p p' : List (String × String)} (h : Attempts device c p)
      (h' : IsQuiet c' p') : Attempts device (c ++ c') (p ++ p') := by
    obtain ⟨rfl, rfl⟩ := h
    obtain ⟨rfl, rfl⟩ := h'
    exact ⟨rfl, rfl⟩
  cases b with
  | apart =>
    exact hreach.bind (fun _ => .still (fun _ => rfl) fun _ => rfl) id happend
  | documents =>
    refine hreach.bind (fun _ => Traces.quiet ?_ fun _ => .still (fun _ => rfl) fun _ => rfl) id
      happend
    exact (getDocument_traces _).quiet fun _ => putDocument_traces _ _

end Memory

/-! ### Steps of an evaluation -/

namespace Evaluator

/-- The calls of an evaluator leave the traces of their kinds. -/
structure IsTraced (e : Evaluator Memory) : Prop where
  get : ∀ key, Traces IsQuiet (e.documents.get key)
  put : ∀ key document, Traces IsQuiet (e.documents.put key document)
  update : ∀ device attributes, Traces (Attempts device) (e.shadows.update device attributes)
  notifier_eq : e.notifier = Memory.notifier

theorem isTraced_of_inMemory? {settings : Settings.Evaluation} (h : inMemory? b settings = some e) :
    e.IsTraced := by
  obtain ⟨retention, minCooldown, rfl⟩ := eq_of_inMemory? h
  exact {
    get := fun key => (Memory.getDocument_traces key).within _ _
    put := fun key document => (Memory.putDocument_traces key document).within _ _
    update := fun device attributes => (Memory.update_traces b device attributes).within _ _
    notifier_eq := rfl }

namespace IsTraced

variable (ht : e.IsTraced)

include ht

theorem ingest (device : String) (reading : Reading) (now : Instant) :
    Traces IsQuiet (History.ingest e.documents e.retention device reading now) :=
  ((ht.get _).quiet fun _ => .ofExcept (.ok _)).quiet fun _ => (Traces.inCalendar _).quiet fun _ =>
    (ht.put _ _).quiet fun _ => .ofExcept (.ok _)

theorem suppresses (device trigger : String) (period : Span) (now : Instant) :
    Traces IsQuiet (Cooldown.suppresses e.documents e.minCooldown device trigger period now) := by
  refine ((ht.get _).quiet fun _ => .ofExcept (.ok _)).quiet fun _ => ?_
  split
  · exact .ofExcept (.ok _)
  · exact (ht.put _ _).quiet fun _ => .ofExcept (.ok _)

/-- The attempt to write comes to an end, so its message is posted. -/
theorem fire (he : e.IsInMemory b) (device trigger : String) (certainty : Float) (now : Instant) :
    Traces IsAnnounced (Firing.fire e.shadows e.notifier device trigger certainty now) := by
  intro s
  have htraces : Traces (Attempts device) (Action.attempt (e.shadows.update device
      (Firing.attributes trigger certainty now)) : Action Memory StoreFailure _) :=
    (ht.update device _).attempt
  have hends : Behaves b (Action.attempt (e.shadows.update device
      (Firing.attributes trigger certainty now)) : Action Memory StoreFailure _) _ :=
    (he.update device _).attempt
  obtain ⟨calls, posted, hcalls, hposted, hattempt, rfl⟩ := htraces s
  -- `Traces` alone would allow an attempt that stops before its message
  obtain ⟨fx, ⟨r, hanswers, hresult⟩, -⟩ := hends s
  rcases hran : (Action.attempt (e.shadows.update device
      (Firing.attributes trigger certainty now)) :
        Action Memory StoreFailure _).onSession s with ⟨stop | result, t⟩
  · rw [hran] at hresult
    cases hanswers <;> cases hresult
  · obtain ⟨answer, hpost⟩ := Memory.isAttentive_notifier.attempt_post (ε := StoreFailure) device
      (Firing.announcement trigger certainty result.isOk) t
    rw [← ht.notifier_eq] at hpost
    have hfire : (Firing.fire e.shadows e.notifier device trigger certainty now).onSession s =
        (Action.ofExcept result).onSession
          (t.posted device (Firing.announcement trigger certainty result.isOk)) :=
      (Action.onSession_bind_ok hran).trans (Action.onSession_bind_ok hpost)
    have hafter : ((Action.ofExcept result : Action Memory StoreFailure Unit).onSession
        (t.posted device (Firing.announcement trigger certainty result.isOk))).2 =
          t.posted device (Firing.announcement trigger certainty result.isOk) := by
      cases result <;> rfl
    rw [hran] at hcalls hposted
    rw [hfire, hafter]
    refine ⟨calls, [(device, Firing.announcement trigger certainty result.isOk)], hcalls, ?_,
      hattempt⟩
    show t.stores.notices ++ _ = _
    rw [hposted, List.append_nil]

theorem settle (he : e.IsInMemory b) (a : Accepted) (certainty : Float) :
    Traces IsAnnounced (e.settle a certainty) := by
  refine (((ht.suppresses _ _ _ _).mapFailure _).mono IsQuiet.isAnnounced).announced fun _ => ?_
  split
  · exact (Traces.ofExcept (.ok _)).mono IsQuiet.isAnnounced
  · exact ((ht.fire he _ _ _ _).mapFailure _).announced fun _ =>
      (Traces.ofExcept (.ok _)).mono IsQuiet.isAnnounced

theorem conclude (he : e.IsInMemory b) (a : Accepted) (v : Verdict) :
    Traces IsAnnounced (e.conclude a v) := by
  cases v with
  | pending => exact (Traces.ofExcept (.ok _)).mono IsQuiet.isAnnounced
  | below certainty => exact (Traces.ofExcept (.ok _)).mono IsQuiet.isAnnounced
  | satisfied certainty => exact ht.settle he a certainty

theorem run (he : e.IsInMemory b) (s : Submission) (received : Instant) :
    Traces IsAnnounced (e.run s received) := by
  refine ((Traces.ofExcept _).mono IsQuiet.isAnnounced).announced fun a => ?_
  refine (((ht.ingest _ _ _).mapFailure _).mono IsQuiet.isAnnounced).announced fun _ => ?_
  exact (ht.conclude he a _).announced fun _ =>
    (Traces.ofExcept (.ok _)).mono IsQuiet.isAnnounced

theorem enterTrail (s : Submission) (result : Except EvaluationFailure Outcome)
    (recorded : Instant) : Traces IsQuiet (e.enterTrail s result recorded) := by
  rw [Evaluator.enterTrail]
  split
  · exact ((ht.get _).quiet fun _ => ht.put _ _).attempt.quiet fun _ => .ofExcept _
  · exact .ofExcept _

/-- Every attempt to write is announced, and nothing else. -/
theorem evaluate (he : e.IsInMemory b) (s : Submission) (clock : ClockReadings) :
    Traces IsAnnounced (e.evaluate s clock) :=
  (ht.run he s clock.received).attempt.announced fun _ =>
    (ht.enterTrail s _ clock.recorded).mono IsQuiet.isAnnounced

end IsTraced

end Evaluator

/-! ### Episodes -/

/-- The messages that were posted in an episode, with the devices on whose behalf they were. -/
def Episode.notices (ep : Episode) : List (String × String) :=
  ep.after.stores.notices.drop ep.before.stores.notices.length

namespace Evaluator

/-- The changes have no message, or one about a write for the device, as the success or failure
that it is. -/
def TellsWrite (device trigger : String) (fx : List Change) : Prop :=
  fx.filterMap Change.notice? = [] ∨ ∃ certainty written,
    fx.filterMap Change.notice? = [(device, Firing.announcement trigger certainty written)] ∧
    (written = true ↔ ∃ attributes, .update device attributes ∈ fx)

theorem Judges.tellsWrite {a : Accepted} {m : Memory}
    {r : Except (Stop EvaluationFailure) Outcome} {fx : List Change} (h : Judges b e a m r fx) :
    TellsWrite a.reading.device a.rule.trigger fx := by
  cases h with
  | @stateFailed _ _ certainty cause hm hs hv hc =>
    refine .inr ⟨certainty, false, rfl, ?_⟩
    simp [Accepted.putHistory, Accepted.putCooldown, Accepted.announce]
  | @fired _ _ certainty hs hv hc =>
    refine .inr ⟨certainty, true, ?_, ?_⟩
    · cases b <;> rfl
    · simp only [true_iff]
      exact ⟨_, List.mem_cons_of_mem _ (List.mem_cons_of_mem _
        (List.mem_append_left _ (Memory.update_mem_updateChanges m _ (a.attributes certainty))))⟩
  | _ => exact .inl rfl

theorem Runs.tellsWrite {s : Submission} {received : Instant} {m : Memory}
    {r : Except (Stop EvaluationFailure) Outcome} {fx : List Change}
    (h : Runs b e s received m r fx) : TellsWrite s.device s.trigger fx := by
  cases h with
  | refused h => exact .inl rfl
  | accepted h hj =>
    have haccepts := ok_of_accept h
    rw [← haccepts.device_eq, ← haccepts.trigger_eq]
    exact hj.tellsWrite

theorem Enters.notices_eq {s : Submission} {recorded : Instant} {m : Memory}
    {ran r : Except (Stop EvaluationFailure) Outcome} {gx : List Change}
    (h : Enters e s recorded ran m r gx) : gx.filterMap Change.notice? = [] := by
  cases h <;> rfl

/-- An episode posts no message, or one about its own write. -/
theorem notices_episode (he : e.IsInMemory b) (session : Session Memory) (request : Request) :
    (e.episode session request).notices = [] ∨ ∃ certainty,
      (e.episode session request).notices =
        [(request.submission.device, Firing.announcement request.submission.trigger certainty
          (decide (e.episode session request).Writes))] := by
  obtain ⟨fx, gx, hr, hx, ev⟩ := evaluate_course he request.submission request.clock session
  have hchanges : (e.episode session request).changes = fx ++ gx := Episode.changes_eq ev
  have hnotices : (e.episode session request).notices = fx.filterMap Change.notice? := by
    have hposted := ev.notices_eq
    rw [List.filterMap_append, hx.notices_eq, List.append_nil] at hposted
    exact (congrArg (List.drop _) hposted).trans List.drop_left
  rw [hnotices]
  rcases hr.tellsWrite with hnone | ⟨certainty, written, hone, hwritten⟩
  · exact .inl hnone
  · refine .inr ⟨certainty, ?_⟩
    have hwrites : decide (e.episode session request).Writes = written := by
      rw [Bool.eq_iff_iff, decide_eq_true_eq, hwritten, Episode.Writes, hchanges]
      apply exists_congr
      intro attributes
      rw [List.mem_append, or_iff_left (hx.isIdle.update _ _)]
      rfl
    rw [hone, hwrites]

/-- The attempts to write in an episode are those that its messages are about. -/
theorem attempts_episode (ht : e.IsTraced) (he : e.IsInMemory b) (session : Session Memory)
    (request : Request) :
    (e.episode session request).calls.filter Call.isUpdate =
      (e.episode session request).notices.map fun notice => .updateReported notice.1 := by
  obtain ⟨calls, posted, hcalls, hposted, hannounced⟩ :=
    ht.evaluate he request.submission request.clock session
  have hmade : (e.episode session request).calls = calls :=
    (congrArg (List.drop _) hcalls).trans List.drop_left
  have hsent : (e.episode session request).notices = posted :=
    (congrArg (List.drop _) hposted).trans List.drop_left
  rw [hmade, hsent]
  exact hannounced

/-- Two runs from the same session with notifiers that answer differently are the same, episode by
episode: in results, calls, stores and messages. An episode that attempts no write posts no message.
Any other one attempts a single write and posts a single message, which tells whether it
succeeded. -/
theorem delivery_ignored {settings : Settings.Evaluation} (he : inMemory? b settings = some e)
    {n n' : Notifier Memory} (hn : n.IsAttentive) (hn' : n'.IsAttentive) (start : Session Memory)
    (requests : List Request) :
    (e.notifying n).episodes start requests = (e.notifying n').episodes start requests ∧
    ∀ ep ∈ (e.notifying n).episodes start requests,
      (ep.calls.filter Call.isUpdate = [] ∧ ep.notices = []) ∨
      (ep.calls.filter Call.isUpdate = [.updateReported ep.request.submission.device] ∧
        ∃ certainty, ep.notices = [(ep.request.submission.device,
          Firing.announcement ep.request.submission.trigger certainty (decide ep.Writes))]) := by
  refine ⟨hn.episodes_eq hn' e start requests, ?_⟩
  intro ep hep
  have hin := isInMemory_of_inMemory? he
  have htraced := isTraced_of_inMemory? he
  have hself : e.notifying Memory.notifier = e := by
    rw [← htraced.notifier_eq]
    rfl
  rw [hn.episodes_eq Memory.isAttentive_notifier, hself] at hep
  have hepisode := (mem_episodes hep).2
  have hattempts := attempts_episode htraced hin ep.before ep.request
  rw [← hepisode] at hattempts
  rcases notices_episode hin ep.before ep.request with hnone | ⟨certainty, hone⟩
  · rw [← hepisode] at hnone
    rw [hnone] at hattempts
    exact .inl ⟨hattempts, hnone⟩
  · rw [← hepisode] at hone
    rw [hone] at hattempts
    exact .inr ⟨hattempts, certainty, hone⟩

end Evaluator

/-- A notifier that accepts no message. -/
def Notifier.rejecting : Notifier Memory where
  post device text := do
    Action.modifyStores fun m =>
      { m with notices := m.notices ++ [(device, text)] }.note (.post device text)
    Action.fail (.rejected 500 "")

theorem Notifier.isAttentive_rejecting : rejecting.IsAttentive :=
  fun _ _ _ => ⟨.error (.rejected 500 ""), rfl⟩

namespace Evaluator

/-- A run whose second reading cannot write its trigger, and whose last one fires. -/
def unheard : List Episode :=
  ((standard .apart).notifying .rejecting).episodes .refusing
    (["2024-05-01T10:00:00Z", "2024-05-01T10:01:10Z", "2024-05-01T10:02:15Z"].map Request.sample)

theorem delivery_ignored_of_unheard :
    unheard = ((standard .apart).notifying Memory.notifier).episodes .refusing
      (["2024-05-01T10:00:00Z", "2024-05-01T10:01:10Z", "2024-05-01T10:02:15Z"].map
        Request.sample) ∧
    unheard.map (fun ep => ep.notices.length) = [0, 1, 1] ∧
    unheard.map Episode.kind? = [some .pending, none, some .fired] ∧
    ∃ ep ∈ unheard, ep.calls.filter Call.isUpdate = [.updateReported "boiler"] ∧
      ∃ certainty, ep.notices = [("boiler", Firing.announcement "low" certainty false)] := by
  have hdelivery := delivery_ignored (inMemory?_default .apart) Notifier.isAttentive_rejecting
    Memory.isAttentive_notifier .refusing
    (["2024-05-01T10:00:00Z", "2024-05-01T10:01:10Z", "2024-05-01T10:02:15Z"].map Request.sample)
  refine ⟨hdelivery.1, by decide +kernel, by decide +kernel, ?_⟩
  have hsecond : (unheard[1]?.any fun ep => ep.request.submission.device == "boiler" &&
      ep.request.submission.trigger == "low" && !decide ep.Writes && ep.notices != []) = true := by
    decide +kernel
  obtain ⟨ep, hep, hshown⟩ := (Option.any_eq_true _ _).mp hsecond
  simp only [Bool.and_eq_true, Bool.not_eq_true', beq_iff_eq, bne_iff_ne] at hshown
  obtain ⟨⟨⟨hdevice, htrigger⟩, hwrites⟩, hposted⟩ := hshown
  have hmem := List.mem_of_getElem? hep
  rcases hdelivery.2 ep hmem with ⟨-, hnone⟩ | ⟨hattempt, certainty, hone⟩
  · exact absurd hnone hposted
  · rw [hdevice] at hattempt hone
    rw [htrigger, hwrites] at hone
    exact ⟨ep, hmem, hattempt, certainty, hone⟩

end Evaluator

end TriggerWatch
