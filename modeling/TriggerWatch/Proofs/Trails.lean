import TriggerWatch.Proofs.Entries
import TriggerWatch.Proofs.Isolation

/-!
# What stands in a trail

An evaluation enters its end in the trail of its device and trigger after everything else. The entry
tells what the caller is told: if it cannot be made, a caller who would have got an outcome gets a
failure instead. So a trail is the story of those evaluations that wrote it, in their order, up to
its capacity, whatever went wrong in between.

## Main definitions

- `Episode.isEntered` — whether an episode wrote the trail of its submission
- `Episode.told?` — the entry that tells what the caller was told
- `Episode.entriesOn` — the entries of those episodes of a trigger that wrote its trail
- `Episode.Leaves` — what an episode leaves in the trails

## Main statements

- `Evaluator.episode_leaves` — each episode writes its entry or no trail at all
- `Evaluator.trail_of_episodes` — the trail after a run
-/

namespace TriggerWatch

open Memory (Backing Change)

variable {b : Backing}

namespace Trail

/-- The document of a trail after entries. -/
def after (capacity : Nat) (document : Option Json) (entries : List Entry) : Option Json :=
  if entries.isEmpty then document
  else some (.array (newest capacity (entriesOf document ++ entries.map Entry.toJson)))

/-- What is dropped early would be dropped late. -/
theorem newest_newest_append {α : Type} (capacity : Nat) (xs ys : List α) :
    newest capacity (newest capacity xs ++ ys) = newest capacity (xs ++ ys) := by
  have hle : xs.length - capacity ≤ xs.length := Nat.sub_le _ _
  rw [newest, newest, newest, ← List.drop_append_of_le_length hle, List.drop_drop,
    List.length_drop, List.length_append]
  congr 1
  omega

theorem after_after (capacity : Nat) (document : Option Json) (first second : List Entry) :
    after capacity (after capacity document first) second =
      after capacity document (first ++ second) := by
  cases first with
  | nil => rfl
  | cons entry rest =>
    cases second with
    | nil => rw [List.append_nil]; rfl
    | cons entry' rest' =>
      have hstep := newest_newest_append capacity
        (entriesOf document ++ (entry :: rest).map Entry.toJson) ((entry' :: rest').map Entry.toJson)
      rw [List.append_assoc, ← List.map_append] at hstep
      exact congrArg (fun entries => some (Json.array entries)) hstep

end Trail

/-! ### One episode -/

namespace Episode

/-- The entry that tells what the caller was told. -/
def told? (ep : Episode) : Option Trail.Entry :=
  match ep.result with
  | .ok outcome => some {
      request := ep.request.submission.toJson
      outcome := outcome.kind.name
      message := outcome.message
      recordedAt := ep.request.clock.recorded }
  | .error (.failed failure) => some {
      request := ep.request.submission.toJson
      outcome := failure.label
      message := failure.message
      recordedAt := ep.request.clock.recorded }
  | .error _ => none

/-- Whether an episode is about a trigger of a device. -/
def isAbout (device trigger : String) (ep : Episode) : Bool :=
  ep.request.submission.device == device && ep.request.submission.trigger == trigger

def trailKey (ep : Episode) : String :=
  Key.trail ep.request.submission.device ep.request.submission.trigger

/-- Whether the trail of the submission was written. -/
def isEntered (ep : Episode) : Bool :=
  ep.changes.any fun
    | .put key _ => key == ep.trailKey
    | _ => false

/-- The entries of those episodes of a trigger that wrote its trail, in the order of the run. -/
def entriesOn (device trigger : String) (eps : List Episode) : List Trail.Entry :=
  (eps.filter fun ep => ep.isAbout device trigger && ep.isEntered).filterMap Episode.told?

theorem isEntered_iff {ep : Episode} : ep.isEntered = true ↔
    ∃ document, .put ep.trailKey document ∈ ep.changes := by
  rw [isEntered, List.any_eq_true]
  constructor
  · rintro ⟨change, hmem, hkey⟩
    cases change with
    | put key document =>
      rw [← eq_of_beq hkey]
      exact ⟨document, hmem⟩
    | update device attributes => cases hkey
    | post device text => cases hkey
  · rintro ⟨document, hmem⟩
    exact ⟨_, hmem, beq_self_eq_true _⟩

/-- An entry holds the submission as it was taken up. -/
theorem request_of_told? {ep : Episode} {entry : Trail.Entry} (h : ep.told? = some entry) :
    entry.request = ep.request.submission.toJson := by
  rw [told?] at h
  split at h
  · cases h
    rfl
  · cases h
    rfl
  · cases h

/-- What an episode leaves in the trails: its entry in that of its submission, or nothing. -/
inductive Leaves (capacity : Nat) (ep : Episode) : Prop
  | nothing
    (hput : ∀ device trigger document, .put (Key.trail device trigger) document ∉ ep.changes)
    (hresult : ∀ outcome, ep.result ≠ .ok outcome)
  | entered {entry : Trail.Entry} {fx : List Change}
    (htrail : Evaluator.hasTrail ep.request.submission = true) (hentry : ep.told? = some entry)
    (hput : ∀ device trigger document, .put (Key.trail device trigger) document ∉ fx)
    (hchanges : ep.changes = fx ++ [.put ep.trailKey (.array (Trail.newest capacity
      (Trail.entriesOf (ep.before.stores.document? ep.trailKey) ++ [entry.toJson])))])

end Episode

namespace Evaluator

variable {e : Evaluator Memory}

theorem episode_leaves (he : e.IsInMemory b) (session : Session Memory) (request : Request) :
    (e.episode session request).Leaves e.trailCapacity := by
  obtain ⟨fx, gx, hruns, henters, ev⟩ :=
    evaluate_course he request.submission request.clock session
  have hchanges : (e.episode session request).changes = fx ++ gx := Episode.changes_eq ev
  have hput := hruns.put_trail_not_mem
  have hresult : (e.episode session request).result =
      ((e.evaluate request.submission request.clock).onSession session).1 := rfl
  generalize ((e.evaluate request.submission request.clock).onSession session).1 = result
    at henters hresult
  generalize ((e.run request.submission request.clock.received).onSession session).1 = ran
    at hruns henters
  have nothing (hgx : gx = []) (hnone : ∀ outcome, result ≠ .ok outcome) :
      (e.episode session request).Leaves e.trailCapacity := by
    rw [hgx, List.append_nil] at hchanges
    exact .nothing (by rwa [hchanges]) (by rwa [hresult])
  cases henters with
  | offCalendar => exact nothing rfl nofun
  | missed hm htrail => exact nothing rfl nofun
  | lost cause hm htrail => exact nothing rfl nofun
  | unnamed hnone =>
    refine nothing rfl ?_
    rintro outcome rfl
    -- a submission with an outcome was accepted, and its names can stand in a key
    cases hruns with
    | accepted ha =>
      rw [(ok_of_accept ha).hasTrail] at hnone
      cases hnone
  | entered htrail =>
    refine .entered htrail ?_ hput hchanges
    rw [Episode.told?, hresult]
    rfl
  | enteredFailure htrail =>
    refine .entered htrail ?_ hput hchanges
    rw [Episode.told?, hresult]
    rfl

end Evaluator

namespace Episode.Leaves

variable {capacity : Nat} {ep : Episode}

theorem exists_entry (h : ep.Leaves capacity) (hin : ep.isEntered = true) :
    ∃ entry, ep.told? = some entry := by
  cases h with
  | nothing hput =>
    obtain ⟨document, hmem⟩ := isEntered_iff.mp hin
    exact absurd hmem (hput _ _ _)
  | entered htrail hentry => exact ⟨_, hentry⟩

theorem isEntered_of_ok (h : ep.Leaves capacity) {outcome : Outcome}
    (hok : ep.result = .ok outcome) : ep.isEntered = true := by
  cases h with
  | nothing hput hresult => exact absurd hok (hresult outcome)
  | entered htrail hentry hput hchanges =>
    rw [isEntered_iff, hchanges]
    exact ⟨_, List.mem_append_right _ List.mem_cons_self⟩

theorem put_not_mem (h : ep.Leaves capacity)
    (hnone : Evaluator.hasTrail ep.request.submission = false) (device trigger : String)
    (document : Json) : .put (Key.trail device trigger) document ∉ ep.changes := by
  cases h with
  | nothing hput => exact hput device trigger document
  | entered htrail =>
    rw [htrail] at hnone
    cases hnone

/-- An episode adds its entry to the trail of its submission and leaves all others. -/
theorem document?_eq (h : ep.Leaves capacity)
    (ev : ep.before.stores.Evolves b ep.changes ep.after.stores) {device trigger : String}
    (hd : Key.hasSeparator device = false) :
    ep.after.stores.document? (Key.trail device trigger) =
      Trail.after capacity (ep.before.stores.document? (Key.trail device trigger))
        (entriesOn device trigger [ep]) := by
  cases h with
  | nothing hput =>
    have hnot : ep.isEntered = false := by
      rw [Bool.eq_false_iff, ne_eq, isEntered_iff]
      rintro ⟨document, hmem⟩
      exact hput _ _ _ hmem
    have hnone : entriesOn device trigger [ep] = [] := by simp [entriesOn, hnot]
    rw [hnone]
    exact ev.document?_eq (hput device trigger)
  | @entered entry fx htrail hentry hput hchanges =>
    have hin : ep.isEntered = true := by
      rw [isEntered_iff, hchanges]
      exact ⟨_, List.mem_append_right _ List.mem_cons_self⟩
    rw [ev.document?_enacted, hchanges, Memory.enactAll_append]
    refine (Memory.document?_put (b := b) _ _ _).trans ?_
    by_cases habout : ep.isAbout device trigger = true
    · have hone : entriesOn device trigger [ep] = [entry] := by
        simp [entriesOn, habout, hin, hentry]
      obtain ⟨hdevice, htrigger⟩ := (Bool.and_eq_true _ _).mp habout
      have hkey : ep.trailKey = Key.trail device trigger := by
        rw [trailKey, eq_of_beq hdevice, eq_of_beq htrigger]
      rw [if_pos hkey, hone, hkey]
      rfl
    · have hnone : entriesOn device trigger [ep] = [] := by simp [entriesOn, habout]
      have hkey : ep.trailKey ≠ Key.trail device trigger := by
        intro hkey
        obtain ⟨haddress, -⟩ := (Bool.and_eq_true _ _).mp htrail
        obtain ⟨hdevice, htrigger⟩ :=
          Key.trail_inj (Key.hasSeparator_eq_false_of_isAddressable haddress) hd hkey
        exact habout (by simp [isAbout, hdevice, htrigger])
      rw [if_neg hkey, hnone]
      exact Memory.document?_enactAll (hput device trigger)

end Episode.Leaves

/-! ### Whole runs -/

theorem Episode.entriesOn_append (device trigger : String) (eps eps' : List Episode) :
    entriesOn device trigger (eps ++ eps') =
      entriesOn device trigger eps ++ entriesOn device trigger eps' := by
  rw [entriesOn, List.filter_append, List.filterMap_append]
  rfl

namespace Evaluator

variable {e : Evaluator Memory}

theorem isEmpty_filterMap {α β : Type} {f : α → Option β} {xs : List α}
    (h : ∀ x ∈ xs, ∃ y, f x = some y) : (xs.filterMap f).isEmpty = xs.isEmpty := by
  cases xs with
  | nil => rfl
  | cons x rest =>
    obtain ⟨y, hy⟩ := h x List.mem_cons_self
    rw [List.filterMap_cons_some hy]
    rfl

theorem leaves_of_mem_episodes (he : e.IsInMemory b) {session : Session Memory}
    {requests : List Request} {ep : Episode} (hep : ep ∈ e.episodes session requests) :
    ep.Leaves e.trailCapacity := by
  rw [(mem_episodes hep).2]
  exact episode_leaves he ep.before ep.request

theorem document?_trail_final (he : e.IsInMemory b) (session : Session Memory)
    (requests : List Request) {device : String} (hd : Key.hasSeparator device = false)
    (trigger : String) :
    (e.final session requests).stores.document? (Key.trail device trigger) =
      Trail.after e.trailCapacity (session.stores.document? (Key.trail device trigger))
        (Episode.entriesOn device trigger (e.episodes session requests)) := by
  induction requests generalizing session with
  | nil => rfl
  | cons request rest ih =>
    have hafter : (e.episode session request).after.stores.document? (Key.trail device trigger) =
        Trail.after e.trailCapacity (session.stores.document? (Key.trail device trigger))
          (Episode.entriesOn device trigger [e.episode session request]) :=
      (episode_leaves he session request).document?_eq (episode_evolves he session request) hd
    have hsplit : e.episodes session (request :: rest) =
        [e.episode session request] ++ e.episodes (e.episode session request).after rest := rfl
    rw [hsplit, Episode.entriesOn_append, ← Trail.after_after, ← hafter]
    exact ih (e.episode session request).after

/-! ### Reading a trail -/

theorem getDocument_of_next {s : Session Memory} (h : s.stores.link.next = none) (key : String) :
    ((Memory.documentStore.get key).onSession s).1 = .ok (s.stores.document? key) := by
  have hreach : (Memory.reach (.get key)).onSession s = (.ok (), { s with
      stores := { s.stores with link := s.stores.link.record (.get key) } }) := by
    show (Link.meet StoreFailure.backend s.stores.link.next).onSession _ = _
    rw [h]
    rfl
  exact congrArg Prod.fst (Action.onSession_bind_ok hreach)

theorem trailCapacity_of_inMemory? {settings : Settings.Evaluation}
    (he : inMemory? b settings = some e) : e.trailCapacity = settings.trailCapacity := by
  obtain ⟨retention, minCooldown, rfl⟩ := eq_of_inMemory? he
  rfl

/-- A call for a trail that meets no fault answers with the entries of its document. -/
theorem onSession_trail_of_next {settings : Settings.Evaluation}
    (he : inMemory? b settings = some e) {s : Session Memory} (h : s.stores.link.next = none)
    (device trigger : String) :
    ((e.trail device trigger).onSession s).1 = .ok ((Trail.entriesOf
      (s.stores.document? (Key.trail device trigger))).filterMap Trail.Entry.ofJson?) := by
  obtain ⟨retention, minCooldown, rfl⟩ := eq_of_inMemory? he
  -- a deadline does not matter to a call that answers
  have hget := (Action.onSession_within settings.storeTimeout
    (.timeout .getDocument settings.storeTimeout)
    (Memory.documentStore.get (Key.trail device trigger)) s).1
  have hanswer := getDocument_of_next
    (s := { s with deadline := some (s.elapsed + settings.storeTimeout) }) h
  rw [hanswer] at hget
  have hrecent := Action.onSession_bind_ok
    (f := fun document => pure ((Trail.entriesOf document).filterMap Trail.Entry.ofJson?))
    (Prod.ext hget rfl)
  exact congrArg Prod.fst ((Action.onSession_mapFailure _ _ _).trans (by rw [hrecent]))

/-- Whoever gets an answer from a trail gets the entries of its document. -/
theorem eq_of_onSession_trail (he : e.IsInMemory b) {s : Session Memory} {device trigger : String}
    {entries : List Trail.Entry} (h : ((e.trail device trigger).onSession s).1 = .ok entries) :
    entries = (Trail.entriesOf (s.stores.document? (Key.trail device trigger))).filterMap
      Trail.Entry.ofJson? := by
  have hrecent := inStep_behaves .trail (Memory.Answers.map
    (fun document => (Trail.entriesOf document).filterMap Trail.Entry.ofJson?)
    (he.documents.get (Key.trail device trigger)))
  obtain ⟨fx, ⟨r, hr, hrenamed⟩, -⟩ := hrecent s
  have hran := hrenamed.symm.trans h
  cases hr with
  | answered =>
    cases hran
    rfl
  | failed cause hm => cases hran

/-- A run leaves in the trail of a trigger of a device, whatever goes wrong in it, the newest of the
entries there were and of those of the episodes that wrote it. Each of these tells what its caller
was told, and nobody is told an outcome without an entry. A trail is read as it stands. Where the
device or the trigger cannot stand in a key, no trail is written. -/
theorem trail_of_episodes {settings : Settings.Evaluation} (he : inMemory? b settings = some e)
    (session : Session Memory) (requests : List Request) :
    (∀ device trigger, Key.isAddressable device = true → Key.isAddressable trigger = true →
      let written := (e.episodes session requests).filter fun ep =>
        ep.isAbout device trigger && ep.isEntered
      let before := session.stores.document? (Key.trail device trigger)
      let final := e.final session requests
      let stored := final.stores.document? (Key.trail device trigger)
      stored = (if written.isEmpty then before else some (.array (Trail.newest
        settings.trailCapacity (Trail.entriesOf before ++
          (written.filterMap Episode.told?).map Trail.Entry.toJson)))) ∧
      (∀ ep ∈ written, ∃ entry, ep.told? = some entry ∧ (entry.recordedAt.HasPlainYear →
        Trail.Entry.ofJson? entry.toJson =
          some { entry with recordedAt := entry.recordedAt.truncated })) ∧
      (∀ entries, ((e.trail device trigger).onSession final).1 = .ok entries →
        entries = (Trail.entriesOf stored).filterMap Trail.Entry.ofJson?) ∧
      (final.stores.link.next = none → ((e.trail device trigger).onSession final).1 =
        .ok ((Trail.entriesOf stored).filterMap Trail.Entry.ofJson?))) ∧
    ∀ ep ∈ e.episodes session requests,
      (∀ outcome, ep.result = .ok outcome → ep.isEntered = true) ∧
      (hasTrail ep.request.submission = false →
        ∀ device trigger document, .put (Key.trail device trigger) document ∉ ep.changes) := by
  have hin := isInMemory_of_inMemory? he
  have hcapacity := trailCapacity_of_inMemory? he
  constructor
  · intro device trigger hd ht written before final stored
    have hstored : stored = Trail.after e.trailCapacity before
        (written.filterMap Episode.told?) :=
      document?_trail_final hin session requests
        (Key.hasSeparator_eq_false_of_isAddressable hd) trigger
    have hentry : ∀ ep ∈ written, ∃ entry, ep.told? = some entry := by
      intro ep hep
      obtain ⟨hep, hwritten⟩ := List.mem_filter.mp hep
      exact (leaves_of_mem_episodes hin hep).exists_entry ((Bool.and_eq_true _ _).mp hwritten).2
    refine ⟨?_, ?_, ?_, ?_⟩
    · rw [hstored, Trail.after, isEmpty_filterMap hentry, hcapacity]
    · intro ep hep
      obtain ⟨entry, he⟩ := hentry ep hep
      refine ⟨entry, he, Trail.Entry.ofJson?_toJson ?_⟩
      rw [Episode.request_of_told? he]
      exact Submission.isStable_toJson _
    · intro entries hread
      exact eq_of_onSession_trail hin hread
    · intro hnext
      exact onSession_trail_of_next he hnext device trigger
  · intro ep hep
    have hleaves := leaves_of_mem_episodes hin hep
    exact ⟨fun outcome => hleaves.isEntered_of_ok, hleaves.put_not_mem⟩

/-- An evaluator that keeps two entries in a trail. -/
def terse : Evaluator Memory :=
  (inMemory? .apart { Settings.Evaluation.default with trailCapacity := 2 }).get (by decide)

/-- Submissions of which the third has no attribute and the fourth no place for a trail. -/
def mixedRequests : List Request :=
  [("boiler", "level"), ("boiler", "level"), ("boiler", " "), ("boiler/low", "level"),
    ("boiler", "level")].map fun (device, attr) => {
      submission := { (Request.sample "2024-05-01T10:00:00Z").submission with device, attr }
      clock := {
        received := .earliest
        recorded := (Instant.ofText? "2024-05-01T10:00:01Z").getD .earliest } }

/-- The first outcome is lost with its entry and the second evaluation fails; the oldest of three
entries has given way. -/
theorem trail_of_mixedRequests :
    let start := Session.fresh fun n => if n = 3 ∨ n = 4 then some (.refuse "down") else none
    ((terse.episodes start mixedRequests).map fun ep => (ep.stop?.isNone, ep.isEntered)) =
      [(false, false), (false, true), (false, true), (false, false), (true, true)] ∧
    ∃ entries, ((terse.trail "boiler" "low").onSession (terse.final start mixedRequests)).1 =
      .ok entries ∧ entries.map Trail.Entry.outcome = ["invalid_request", "pending"] := by
  intro start
  have hterse : inMemory? .apart { Settings.Evaluation.default with trailCapacity := 2 } =
      some terse := (Option.some_get _).symm
  obtain ⟨htrails, -⟩ := trail_of_episodes hterse start mixedRequests
  obtain ⟨-, -, -, hread⟩ := htrails "boiler" "low" (by decide +kernel) (by decide +kernel)
  exact ⟨by decide +kernel, _, hread (by decide +kernel), by decide +kernel⟩

end Evaluator

end TriggerWatch
