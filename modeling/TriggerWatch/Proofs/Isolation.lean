import TriggerWatch.Proofs.Determinism

/-!
# Devices do not see each other

An evaluation reads and writes documents of its own device only. A name with a separator in it could
make the key of one device look like that of another, but a submission with such a name is refused
before a key is made. So without faults the results for a device, and all that is stored about it,
are those of a run on its own requests, and requests of different devices can change places.

## Main definitions

- `Key.IsOf`, `Key.IsAddressOf` — the keys of a device, and those under which it can be written
- `Memory.AgreeOn` — two states of the stores hold the same about a device
- `Request.on`, `Episode.resultsOn` — the requests of a device, and the results for it
- `Evaluator.final` — the session after a run

## Main statements

- `Evaluator.agreeOn_episode` — an evaluation leaves what is stored about other devices
- `Evaluator.episode_congr` — for its own device it depends on what is stored about it
- `Evaluator.results_isolated` — whole runs
-/

namespace TriggerWatch

open Memory (Backing Change)

variable {b : Backing} {e : Evaluator Memory} {device : String}

/-! ### The keys of a device -/

namespace Key

/-- The keys of the documents about a device. -/
inductive IsOf (device key : String) : Prop
  | history (h : key = Key.history device)
  | shadow (h : key = Key.shadow device)
  | cooldown (trigger : String) (h : key = Key.cooldown device trigger)
  | trail (trigger : String) (h : key = Key.trail device trigger)

/-- The keys under which documents about a device are put. No separator stands in a name. -/
inductive IsAddressOf (device key : String) : Prop
  | history (h : key = Key.history device)
  | shadow (h : key = Key.shadow device)
  | cooldown {trigger : String} (hd : hasSeparator device = false)
    (ht : hasSeparator trigger = false) (h : key = Key.cooldown device trigger)
  | trail {trigger : String} (hd : hasSeparator device = false)
    (ht : hasSeparator trigger = false) (h : key = Key.trail device trigger)

theorem hasSeparator_eq_false_of_isAddressable {name : String} (h : isAddressable name = true) :
    hasSeparator name = false := by
  rw [isAddressable, Bool.and_eq_true, Bool.not_eq_true', Bool.not_eq_true'] at h
  exact h.2

theorem count_separator_eq_zero_iff {name : String} :
    name.toList.count separator = 0 ↔ hasSeparator name = false := by
  rw [List.count_eq_zero, hasSeparator, Bool.eq_false_iff, ne_eq, List.contains_iff_mem]

/-- Two names around a separator are found back if they are free of it. -/
theorem device_eq_of_append_eq {device device' trigger trigger' : String}
    (hd : hasSeparator device' = false) (ht : hasSeparator trigger' = false)
    (h : device ++ "/" ++ trigger = device' ++ "/" ++ trigger') : device = device' := by
  -- as many separators stand on the left as on the right, so none is left for the device
  have hcount := congrArg (fun s : String => s.toList.count separator) h
  have hone : "/".toList.count separator = 1 := by decide
  simp only [String.toList_append, List.count_append, hone,
    count_separator_eq_zero_iff.mpr hd, count_separator_eq_zero_iff.mpr ht] at hcount
  have hdevice : hasSeparator device = false := count_separator_eq_zero_iff.mp (by omega)
  exact (device_inj hdevice hd h).1

theorem IsAddressOf.isOf {key : String} (h : IsAddressOf device key) : IsOf device key := by
  cases h with
  | history h => exact .history h
  | shadow h => exact .shadow h
  | cooldown hd ht h => exact .cooldown _ h
  | trail hd ht h => exact .trail _ h

/-- A document is put under keys of one device only. -/
theorem IsAddressOf.device_eq {device' key : String} (h : IsAddressOf device' key)
    (h' : IsOf device key) : device = device' := by
  cases h with
  | history h =>
    subst h
    cases h' with
    | history h' => exact (history_inj h').symm
    | shadow h' | cooldown _ h' | trail _ h' => exact absurd h' (ne_of_kindLetter_ne (by simp))
  | shadow h =>
    subst h
    cases h' with
    | shadow h' => exact (shadow_inj h').symm
    | history h' | cooldown _ h' | trail _ h' => exact absurd h' (ne_of_kindLetter_ne (by simp))
  | cooldown hd ht h =>
    subst h
    cases h' with
    | cooldown _ h' => exact device_eq_of_append_eq hd ht ((String.append_left_inj _).mp h'.symm)
    | history h' | shadow h' | trail _ h' => exact absurd h' (ne_of_kindLetter_ne (by simp))
  | trail hd ht h =>
    subst h
    cases h' with
    | trail _ h' => exact device_eq_of_append_eq hd ht ((String.append_left_inj _).mp h'.symm)
    | history h' | shadow h' | cooldown _ h' => exact absurd h' (ne_of_kindLetter_ne (by simp))

end Key

/-! ### What is stored about a device -/

namespace Memory

variable {m m' m'' : Memory}

/-- Two states of the stores hold the same documents about a device and the same reported state of
it. -/
structure AgreeOn (b : Backing) (device : String) (m m' : Memory) : Prop where
  document? : ∀ key, Key.IsOf device key → m.document? key = m'.document? key
  reported? : m.reported? b device = m'.reported? b device

theorem AgreeOn.refl (m : Memory) : m.AgreeOn b device m := ⟨fun _ _ => rfl, rfl⟩

theorem AgreeOn.symm (h : m.AgreeOn b device m') : m'.AgreeOn b device m :=
  ⟨fun key hk => (h.document? key hk).symm, h.reported?.symm⟩

theorem AgreeOn.trans (h : m.AgreeOn b device m') (h' : m'.AgreeOn b device m'') :
    m.AgreeOn b device m'' :=
  ⟨fun key hk => (h.document? key hk).trans (h'.document? key hk), h.reported?.trans h'.reported?⟩

/-- Stores that agree before a change agree after it. -/
theorem AgreeOn.enact (h : m.AgreeOn b device m') (change : Change) :
    (m.enact b change).AgreeOn b device (m'.enact b change) := by
  have hdocument : ∀ key, Key.IsOf device key →
      (m.enact b change).document? key = (m'.enact b change).document? key := by
    intro key hk
    cases change with
    | put other document => rw [document?_put, document?_put, h.document? key hk]
    | update other attributes => rw [document?_update, document?_update, h.document? key hk]
    | post other text => exact h.document? key hk
  refine ⟨hdocument, ?_⟩
  cases b with
  | documents => rw [Memory.reported?, Memory.reported?, hdocument _ (.shadow rfl)]
  | apart =>
    cases change with
    | put other document => exact h.reported?
    | post other text => exact h.reported?
    | update other attributes =>
      have hother := h.reported?
      simp only [Memory.reported?, Memory.enact, note, merge, Dict.get?_insert] at hother ⊢
      by_cases hd : other = device
      · rw [if_pos hd, if_pos hd, hd, hother]
      · rw [if_neg hd, if_neg hd, hother]

theorem AgreeOn.enactAll (h : m.AgreeOn b device m') (fx : List Change) :
    (m.enactAll b fx).AgreeOn b device (m'.enactAll b fx) := by
  induction fx generalizing m m' with
  | nil => exact h
  | cons change rest ih => exact ih (h.enact change)

theorem AgreeOn.evolves {n n' : Memory} {fx : List Change} (h : m.AgreeOn b device m')
    (ev : m.Evolves b fx n) (ev' : m'.Evolves b fx n') : n.AgreeOn b device n' := by
  have hall := h.enactAll fx
  refine ⟨fun key hk => ?_, ?_⟩
  · rw [ev.document?_enacted, ev'.document?_enacted]
    exact hall.document? key hk
  · rw [ev.reported?_enacted, ev'.reported?_enacted]
    exact hall.reported?

/-- A change concerns only what is stored about a device. -/
def Change.IsOn (device : String) : Change → Prop
  | .put key _ => Key.IsAddressOf device key
  | .update other _ => other = device
  | .post _ _ => True

theorem agreeOn_of_isOn {other : String} {fx : List Change} (ev : m.Evolves b fx m')
    (h : ∀ c ∈ fx, c.IsOn other) (hne : device ≠ other) : m.AgreeOn b device m' := by
  have hput {key : String} (hk : Key.IsOf device key) (document : Json) : .put key document ∉ fx :=
    fun hc => hne ((h _ hc).device_eq hk)
  exact ⟨fun key hk => (ev.document?_eq (hput hk)).symm,
    (ev.reported?_eq (hput (.shadow rfl)) fun attributes hc => hne (h _ hc)).symm⟩

end Memory

/-! ### One evaluation -/

namespace Evaluator

variable {m m' : Memory}

theorem Judges.isOn {s : Submission} {received : Instant} {a : Accepted}
    {r : Except (Stop EvaluationFailure) Outcome} {fx : List Change} (h : Judges b e a m r fx)
    (ha : e.Accepts s received a) : ∀ c ∈ fx, c.IsOn a.reading.device := by
  intro c hc
  have hconcerns := h.concerns c hc
  cases c with
  | put key document =>
    rcases hconcerns with hk | hk | ⟨-, hk⟩
    · exact .history hk
    · have htrigger := (Submission.ok_of_rule ha.rule).isAddressable_trigger
      rw [← ha.trigger_eq] at htrigger
      exact .cooldown ha.not_hasSeparator (Key.hasSeparator_eq_false_of_isAddressable htrigger) hk
    · exact .shadow hk
  | update other attributes => exact hconcerns
  | post other text => trivial

theorem Runs.isOn {s : Submission} {received : Instant}
    {r : Except (Stop EvaluationFailure) Outcome} {fx : List Change}
    (h : Runs b e s received m r fx) : ∀ c ∈ fx, c.IsOn s.device := by
  cases h with
  | refused => nofun
  | accepted ha hj =>
    have haccepts := ok_of_accept ha
    rw [← haccepts.device_eq]
    exact hj.isOn haccepts

theorem Enters.isOn {s : Submission} {recorded : Instant}
    {ran r : Except (Stop EvaluationFailure) Outcome} {gx : List Change}
    (h : Enters e s recorded ran m r gx) : ∀ c ∈ gx, c.IsOn s.device := by
  have address (ht : hasTrail s = true) :
      Key.IsAddressOf s.device (Key.trail s.device s.trigger) := by
    obtain ⟨hd, ht⟩ := (Bool.and_eq_true _ _).mp ht
    exact .trail (Key.hasSeparator_eq_false_of_isAddressable hd)
      (Key.hasSeparator_eq_false_of_isAddressable ht) rfl
  cases h with
  | entered ht | enteredFailure ht =>
    intro c hc
    rw [List.mem_singleton.mp hc]
    exact address ht
  | _ => nofun

theorem episode_isOn (he : e.IsInMemory b) (session : Session Memory) (request : Request) :
    ∃ fx, (∀ c ∈ fx, c.IsOn request.submission.device) ∧
      session.stores.Evolves b fx (e.episode session request).after.stores := by
  obtain ⟨fx, gx, hr, hx, ev⟩ := evaluate_course he request.submission request.clock session
  refine ⟨fx ++ gx, List.forall_mem_append.mpr ⟨?_, hx.isOn⟩, ev⟩
  exact hr.isOn

/-- An evaluation leaves what is stored about other devices, also where it is refused or fails. -/
theorem agreeOn_episode (he : e.IsInMemory b) (session : Session Memory) {request : Request}
    (hne : device ≠ request.submission.device) :
    session.stores.AgreeOn b device (e.episode session request).after.stores := by
  obtain ⟨fx, hfx, ev⟩ := episode_isOn he session request
  exact Memory.agreeOn_of_isOn ev hfx hne

theorem judged_congr {a : Accepted} (h : m.AgreeOn b a.reading.device m') :
    e.judged b a m = e.judged b a m' := by
  have hrecords (horizon : Instant) : a.records horizon m = a.records horizon m' := by
    rw [Accepted.records, Accepted.records, h.document? _ (.history rfl)]
  have hheld : a.IsHeld m e.minCooldown ↔ a.IsHeld m' e.minCooldown := by
    rw [Accepted.IsHeld, Accepted.IsHeld, Cooldown.Holds, Cooldown.Holds, Memory.lastFire?,
      Memory.lastFire?, h.document? _ (.cooldown _ rfl)]
  have hupdate (attributes : Dict Json) : m.updateChanges b a.reading.device attributes =
      m'.updateChanges b a.reading.device attributes := by
    cases b with
    | apart => rfl
    | documents => rw [Memory.updateChanges, Memory.updateChanges, h.document? _ (.shadow rfl)]
  have hsettled (v : Verdict) : e.settled b a m v = e.settled b a m' v := by
    cases v with
    | pending => rfl
    | below certainty => rfl
    | satisfied certainty => simp only [settled, hheld, hupdate]
  simp only [judged, Accepted.verdict, Accepted.outcome, Accepted.tally, Accepted.putHistory,
    hrecords, hsettled]

theorem trailChanges_congr {s : Submission} {recorded : Instant}
    (h : m.AgreeOn b s.device m') (r : Except (Stop EvaluationFailure) Outcome) :
    e.trailChanges s recorded m r = e.trailChanges s recorded m' r := by
  have hput (result : Except EvaluationFailure Outcome) :
      e.putTrail s result recorded m = e.putTrail s result recorded m' := by
    rw [putTrail, putTrail, trailWith, trailWith, h.document? _ (.trail _ rfl)]
  rcases r with (_ | _ | _) | _ <;> simp only [trailChanges, hput]

/-- The course of an evaluation depends on what is stored about its device. -/
theorem course_congr {request : Request} (h : m.AgreeOn b request.submission.device m') :
    e.course b request m = e.course b request m' := by
  have hran : e.ran b request.submission request.clock.received m =
      e.ran b request.submission request.clock.received m' := by
    cases ha : e.accept request.submission request.clock.received with
    | error failure => simp only [ran, ha]
    | ok a =>
      simp only [ran, ha]
      rw [← (ok_of_accept ha).device_eq] at h
      exact judged_congr h
  rw [course, course, hran, trailChanges_congr h]

/-- On stores without faults that agree on its device an evaluation has the same result, and what it
leaves agrees on its device. -/
theorem episode_congr (he : e.IsInMemory b) {s t : Session Memory} {request : Request}
    (h : s.stores.AgreeOn b request.submission.device t.stores) (hs : ¬ s.stores.IsFaulty)
    (ht : ¬ t.stores.IsFaulty) :
    (e.episode s request).result = (e.episode t request).result ∧
      (e.episode s request).after.stores.AgreeOn b request.submission.device
        (e.episode t request).after.stores := by
  obtain ⟨hresult, ev⟩ := episode_course he request hs
  obtain ⟨hresult', ev'⟩ := episode_course he request ht
  have hcourse := course_congr (e := e) h
  rw [← hcourse] at hresult' ev'
  exact ⟨hresult.trans hresult'.symm, h.evolves ev ev'⟩

/-! ### Whole runs -/

/-- The session after a run. -/
def final (e : Evaluator Memory) (session : Session Memory) : List Request → Session Memory
  | [] => session
  | request :: rest => e.final (e.episode session request).after rest

theorem not_isFaulty_final (he : e.IsInMemory b) {start : Session Memory}
    (hs : ¬ start.stores.IsFaulty) (requests : List Request) :
    ¬ (e.final start requests).stores.IsFaulty := by
  induction requests generalizing start with
  | nil => exact hs
  | cons request rest ih => exact ih (not_isFaulty_episode he hs request)

end Evaluator

/-- The requests about a device. -/
def Request.on (device : String) (requests : List Request) : List Request :=
  requests.filter fun request => request.submission.device == device

/-- The results of the episodes about a device. -/
def Episode.resultsOn (device : String) (episodes : List Episode) :
    List (Except (Stop EvaluationFailure) Outcome) :=
  (episodes.filter fun ep => ep.request.submission.device == device).map Episode.result

namespace Evaluator

theorem resultsOn_episodes_cons (session : Session Memory) (request : Request)
    (rest : List Request) :
    Episode.resultsOn device (e.episodes session (request :: rest)) =
      (if request.submission.device = device then [(e.episode session request).result] else []) ++
        Episode.resultsOn device (e.episodes (e.episode session request).after rest) := by
  have hrequest : (e.episode session request).request = request := rfl
  by_cases hd : request.submission.device = device
  · rw [if_pos hd, Episode.resultsOn, episodes, List.filter_cons_of_pos (by simpa [hrequest])]
    rfl
  · rw [if_neg hd, Episode.resultsOn, episodes, List.filter_cons_of_neg (by simpa [hrequest])]
    rfl

/-- Of two runs from stores that agree on a device, one is made of the requests of the other that
are about this device. -/
theorem episodes_on (he : e.IsInMemory b) {start start' : Session Memory} (requests : List Request)
    (h : start.stores.AgreeOn b device start'.stores) (hs : ¬ start.stores.IsFaulty)
    (hs' : ¬ start'.stores.IsFaulty) :
    Episode.resultsOn device (e.episodes start requests) =
        Episode.resultsOn device (e.episodes start' (Request.on device requests)) ∧
      (e.final start requests).stores.AgreeOn b device
        (e.final start' (Request.on device requests)).stores := by
  induction requests generalizing start start' with
  | nil => exact ⟨rfl, h⟩
  | cons request rest ih =>
    have sound := not_isFaulty_episode he hs request
    rw [resultsOn_episodes_cons]
    by_cases hd : request.submission.device = device
    · subst hd
      -- a request of the device is taken up in both runs
      obtain ⟨hresult, hagree⟩ := episode_congr he h hs hs'
      have sound' := not_isFaulty_episode he hs' request
      have hon : Request.on request.submission.device (request :: rest) =
          request :: Request.on request.submission.device rest :=
        List.filter_cons_of_pos (beq_self_eq_true _)
      obtain ⟨hresults, hfinal⟩ := ih hagree sound sound'
      rw [hon, resultsOn_episodes_cons, hresult, hresults]
      exact ⟨rfl, hfinal⟩
    · -- any other request leaves the first run in agreement with the second
      have hforeign := agreeOn_episode he start (Ne.symm hd)
      have hon : Request.on device (request :: rest) = Request.on device rest :=
        List.filter_cons_of_neg (by simpa using hd)
      obtain ⟨hresults, hfinal⟩ := ih (hforeign.symm.trans h) sound hs'
      rw [hon, if_neg hd, List.nil_append]
      exact ⟨hresults, hfinal⟩

/-- A run on requests about one device has results for this device only. -/
theorem resultsOn_on (start : Session Memory) (requests : List Request) :
    Episode.resultsOn device (e.episodes start (Request.on device requests)) =
      (e.episodes start (Request.on device requests)).map Episode.result := by
  rw [Episode.resultsOn, List.filter_eq_self.mpr]
  intro ep hep
  exact (List.mem_filter.mp (mem_episodes hep).1).2

/-- A document that belongs to no device stays as it is. -/
theorem document?_final (he : e.IsInMemory b) (start : Session Memory) (requests : List Request)
    {key : String} (hk : ∀ device, ¬ Key.IsOf device key) :
    (e.final start requests).stores.document? key = start.stores.document? key := by
  induction requests generalizing start with
  | nil => rfl
  | cons request rest ih =>
    obtain ⟨fx, hfx, ev⟩ := episode_isOn he start request
    have hput : ∀ document, .put key document ∉ fx :=
      fun document hc => hk _ (hfx _ hc).isOf
    exact (ih _).trans (ev.document?_eq hput)

/-- On stores without faults the results for a device and all that is stored about it after a run
are those of the run on the requests about this device. Hence another order of the requests, in
which those about each device keep theirs, leads to the same results for every device, the same
documents under all keys and the same reported states. -/
theorem results_isolated {settings : Settings.Evaluation} (he : inMemory? b settings = some e)
    {start : Session Memory} (hs : ¬ start.stores.IsFaulty) (requests : List Request) :
    (∀ device,
      Episode.resultsOn device (e.episodes start requests) =
          (e.episodes start (Request.on device requests)).map Episode.result ∧
        (e.final start requests).stores.AgreeOn b device
          (e.final start (Request.on device requests)).stores) ∧
    ∀ reordered, (∀ device, Request.on device reordered = Request.on device requests) →
      (∀ device, Episode.resultsOn device (e.episodes start reordered) =
        Episode.resultsOn device (e.episodes start requests)) ∧
      (∀ key, (e.final start reordered).stores.document? key =
        (e.final start requests).stores.document? key) ∧
      ∀ device, (e.final start reordered).stores.reported? b device =
        (e.final start requests).stores.reported? b device := by
  have hin := isInMemory_of_inMemory? he
  have alone (device : String) (taken : List Request) :=
    episodes_on hin taken (show start.stores.AgreeOn b device start.stores from .refl _) hs hs
  refine ⟨fun device => ?_, fun reordered hon => ?_⟩
  · rw [← resultsOn_on]
    exact alone device requests
  · -- both orders agree with the run on the requests of a single device
    have agree (device : String) : (e.final start reordered).stores.AgreeOn b device
        (e.final start requests).stores := by
      have hreordered := (alone device reordered).2
      rw [hon device] at hreordered
      exact hreordered.trans (alone device requests).2.symm
    refine ⟨fun device => ?_, fun key => ?_, fun device => (agree device).reported?⟩
    · rw [(alone device reordered).1, hon device, ← (alone device requests).1]
    · by_cases hk : ∃ device, Key.IsOf device key
      · obtain ⟨device, hk⟩ := hk
        exact (agree device).document? key hk
      · have hnone : ∀ device, ¬ Key.IsOf device key := fun device h => hk ⟨device, h⟩
        rw [document?_final hin _ _ hnone, document?_final hin _ _ hnone]

/-- Readings of two devices that come in turn, and one refused for the name of its device. -/
def interleaved : List Request :=
  [("boiler", "2024-05-01T10:00:00Z"), ("pump", "2024-05-01T09:00:00Z"),
    ("boiler", "2024-05-01T10:01:10Z"), ("boiler/low", "2024-05-01T10:01:15Z"),
    ("pump", "2024-05-01T11:00:00Z")].map fun (device, timestamp) =>
      { Request.sample timestamp with
        submission := { (Request.sample timestamp).submission with device } }

/-- The readings of the boiler can be taken up after all others. -/
theorem results_isolated_of_interleaved :
    ∃ reordered : List Request,
      reordered.map (fun request => request.submission.device) =
        ["pump", "boiler/low", "pump", "boiler", "boiler"] ∧
      (Episode.resultsOn "boiler" ((standard .documents).episodes
          (.fresh fun _ => none) reordered) =
        ((standard .documents).episodes (.fresh fun _ => none)
          (Request.on "boiler" interleaved)).map Episode.result) ∧
      ((standard .documents).episodes (.fresh fun _ => none) interleaved).map Episode.kind? =
        [some .pending, some .pending, some .fired, none, some .pending] ∧
      ∀ key, ((standard .documents).final (.fresh fun _ => none) reordered).stores.document? key =
        ((standard .documents).final (.fresh fun _ => none) interleaved).stores.document? key := by
  have hon (device : String) : Request.on device
      (interleaved.filter (fun request => request.submission.device != "boiler") ++
        Request.on "boiler" interleaved) = Request.on device interleaved := by
    rw [Request.on, Request.on, List.filter_append, List.filter_filter, List.filter_filter]
    by_cases hd : device = "boiler"
    · subst hd
      simp [Request.on]
    · have hothers : interleaved.filter (fun request => request.submission.device == device &&
          request.submission.device != "boiler") =
          interleaved.filter fun request => request.submission.device == device := by
        refine List.filter_congr fun request _ => ?_
        by_cases hr : request.submission.device = device <;> simp [hr, hd]
      have hboiler : interleaved.filter (fun request => request.submission.device == device &&
          request.submission.device == "boiler") = [] := by
        refine List.filter_eq_nil_iff.mpr fun request _ => ?_
        by_cases hr : request.submission.device = device <;> simp [hr, hd]
      rw [hothers, hboiler, List.append_nil]
      rfl
  obtain ⟨halone, hreordered⟩ :=
    results_isolated (inMemory?_default .documents) Session.not_isFaulty_fresh interleaved
  obtain ⟨hresults, hdocuments, -⟩ := hreordered _ hon
  exact ⟨_, by decide +kernel, (hresults "boiler").trans (halone "boiler").1, by decide +kernel,
    hdocuments⟩

end Evaluator

end TriggerWatch
