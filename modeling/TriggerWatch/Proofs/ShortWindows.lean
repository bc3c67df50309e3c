import TriggerWatch.Proofs.Isolation
import TriggerWatch.Proofs.Messages
import TriggerWatch.Proofs.Retention
import TriggerWatch.Proofs.Verdicts

/-!
# Short windows do not see the retention time

Every accepted submission removes old readings from the history of its device, at its own time and
for all rules. A rule whose window and the period before it fit into the retention time counts as if
nothing had ever been removed, as long as the readings of the device come in the order of their
times. For what an earlier submission removed is older than everything a later rule looks at.

## Main definitions

- `Evaluator.acceptedOn` — the accepted submissions about a device
- `Accepted.ingestion` — the call of an accepted submission on the history

## Main statements

- `Rule.tally_remaining` — the tally on a history from which only older readings were removed
- `Evaluator.document?_history_final` — a run makes the calls of the accepted submissions
- `Evaluator.tally_unpruned` — the counts of a short rule in a run
-/

namespace TriggerWatch

open Memory (Backing Change)

variable {b : Backing} {e : Evaluator Memory} {device : String}

/-- A recorded value is the reported one or the class of a beacon, which is a text. -/
theorem BeaconTable.isFinite_resolve {table : BeaconTable} {value v : Datum}
    {beacon : Option String} (hvalue : value.IsFinite) (h : table.resolve value beacon = .ok v) :
    v.IsFinite := by
  cases beacon with
  | none =>
    cases h
    exact hvalue
  | some beacon =>
    simp only [resolve] at h
    split at h
    · cases h
      trivial
    · cases h

/-! ### Tallies -/

namespace Rule

variable (r : Rule) (now : Instant)

/-- Readings before the period before the window do not count. -/
theorem tally_filter (readings : List Reading) :
    r.tally (readings.filter fun x => (Window.ending now r.period).priorStart ≤ x.timestamp) now =
      r.tally readings now := by
  rw [tally, tally]
  generalize Window.ending now r.period = w
  have hwatched : (readings.filter fun x => w.priorStart ≤ x.timestamp).filter
      (fun x => x.attr == r.attr) = (readings.filter fun x => x.attr == r.attr).filter
        fun x => w.priorStart ≤ x.timestamp := by
    rw [List.filter_filter, List.filter_filter]
    exact List.filter_congr fun x _ => Bool.and_comm _ _
  have hinside (t : Instant) : (w.isInside t && decide (w.priorStart ≤ t)) = w.isInside t := by
    rw [Window.isInside]
    by_cases ht : t < w.priorStart <;> simp [Instant.le_iff_not_lt, ht]
  have hprior (t : Instant) : (decide (w.priorStart ≤ t) && w.isPrior t) = w.isPrior t := by
    rw [Window.isPrior]
    by_cases ht : t < w.priorStart <;> simp [Instant.le_iff_not_lt, ht]
  simp only [hwatched, List.countP_filter, List.any_filter,
    Bool.and_right_comm _ (r.condition.holds _), hinside, hprior]

open History (Operation remaining) in
/-- Calls with horizons before the period before the window remove nothing that counts. -/
theorem tally_remaining {retention : Span} {ops : List Operation}
    (h : ∀ op ∈ ops, ∀ horizon ∈ op.horizon? retention,
      horizon ≤ (Window.ending now r.period).priorStart) :
    r.tally ((remaining retention ops).map Reading.truncated) now =
      r.tally ((ops.filterMap Operation.reading?).map Reading.truncated) now := by
  rw [← tally_filter, List.filter_map, History.filter_remaining h, ← List.filter_map, tally_filter]
  intro x hx
  exact of_decide_eq_true hx

/-- The period before the window of a short rule does not begin before a horizon that is not later
than the present one. -/
theorem le_priorStart {r : Rule} {now t horizon : Instant} {retention : Span}
    (h : r.period = ⟨0⟩ ∨ 1000000000 ≤ r.period.nanos)
    (hshort : 2 * r.period.nanos ≤ retention.nanos) (hleap : ¬ now.isLeap) (ht : ¬ t.isLeap)
    (hle : t ≤ now) (hh : t.sub? retention = some horizon) :
    horizon ≤ (Window.ending now r.period).priorStart := by
  have hnonneg : 0 ≤ r.period.nanos := by
    rcases h with h | h
    · exact Int.le_of_eq (congrArg Span.nanos h).symm
    · omega
  obtain ⟨start, hs, hstart⟩ : ∃ start, now.sub? ⟨2 * r.period.nanos⟩ = some start ∧
      horizon ≤ start := Instant.exists_sub? ht hleap hle (by simp only; omega) hshort hh
  rw [ending_eq h, priorStart, hs]
  exact hstart

end Rule

/-! ### The calls of a run -/

/-- The call of an accepted submission on the history of its device. -/
def Accepted.ingestion (a : Accepted) : History.Operation :=
  .ingest a.reading.device a.reading a.now

namespace Evaluator

def accepted? (e : Evaluator Memory) (request : Request) : Option Accepted :=
  (e.accept request.submission request.clock.received).toOption

/-- The accepted submissions about a device, in their order. -/
def acceptedOn (e : Evaluator Memory) (device : String) (requests : List Request) :
    List Accepted :=
  (Request.on device requests).filterMap e.accepted?

theorem acceptedOn_append (requests requests' : List Request) :
    e.acceptedOn device (requests ++ requests') =
      e.acceptedOn device requests ++ e.acceptedOn device requests' := by
  rw [acceptedOn, Request.on, List.filter_append, List.filterMap_append]
  rfl

theorem acceptedOn_self (request : Request) :
    e.acceptedOn request.submission.device [request] = (e.accepted? request).toList := by
  have hon : Request.on request.submission.device [request] = [request] :=
    List.filter_cons_of_pos (beq_self_eq_true _)
  rw [acceptedOn, hon, filterMap_cons_eq_append]
  exact List.append_nil _

theorem acceptedOn_of_accept {request : Request} {a : Accepted}
    (ha : e.accept request.submission request.clock.received = .ok a) :
    e.acceptedOn a.reading.device [request] = [a] := by
  rw [(ok_of_accept ha).device_eq, acceptedOn_self, accepted?, ha]
  rfl

theorem acceptedOn_of_ne {request : Request} (h : request.submission.device ≠ device) :
    e.acceptedOn device [request] = [] := by
  rw [acceptedOn, Request.on, List.filter_cons_of_neg (by simpa using h), List.filter_nil,
    List.filterMap_nil]

theorem acceptedOn_take_sublist (requests : List Request) (n : Nat) :
    (e.acceptedOn device (requests.take n)).Sublist (e.acceptedOn device requests) :=
  ((List.take_sublist n requests).filter _).filterMap _

theorem acceptedOn_take_succ {requests : List Request} {n : Nat} {request : Request} {a : Accepted}
    (hn : requests[n]? = some request)
    (ha : e.accept request.submission request.clock.received = .ok a) :
    e.acceptedOn a.reading.device (requests.take (n + 1)) =
      e.acceptedOn a.reading.device (requests.take n) ++ [a] := by
  rw [List.take_add_one, hn, acceptedOn_append]
  exact congrArg _ (acceptedOn_of_accept ha)

theorem exists_of_mem_acceptedOn {requests : List Request} {a : Accepted}
    (h : a ∈ e.acceptedOn device requests) : ∃ request ∈ requests,
      request.submission.device = device ∧
      e.accept request.submission request.clock.received = .ok a := by
  obtain ⟨request, hrequest, ha⟩ := List.mem_filterMap.mp h
  obtain ⟨hmem, hd⟩ := List.mem_filter.mp hrequest
  exact ⟨request, hmem, eq_of_beq hd, eq_ok_of_toOption ha⟩

/-- An accepted submission leaves those records that its call on the history leaves. -/
theorem array_records {a : Accepted} {horizon : Instant} (m : Memory)
    (hh : a.now.sub? e.retention = some horizon) :
    History.documentAfter e.retention (m.document? (Key.history a.reading.device)) [a.ingestion] =
      some (.array (a.records horizon m)) := by
  simp only [History.documentAfter, List.foldl_cons, List.foldl_nil, Accepted.ingestion,
    History.Operation.revised, History.Operation.horizon?, History.Operation.now?,
    History.Operation.reading?, Option.bind_some, hh]
  rfl

/-- An evaluation calls on the history of its device, if it is accepted. -/
theorem document?_history_episode (he : e.IsInMemory b) {session : Session Memory}
    (hs : ¬ session.stores.IsFaulty) (request : Request)
    (hcal : ∀ a ∈ e.acceptedOn device [request], a.now.sub? e.retention ≠ none) :
    (e.episode session request).after.stores.document? (Key.history device) =
      History.documentAfter e.retention (session.stores.document? (Key.history device))
        ((e.acceptedOn device [request]).map Accepted.ingestion) := by
  by_cases hd : request.submission.device = device
  · subst hd
    obtain ⟨fx, gx, hr, hx, ev⟩ := evaluate_course he request.submission request.clock session
    -- the entry in the trail leaves the history
    have htrail : ∀ document, .put (Key.history request.submission.device) document ∉ gx := by
      intro document hmem
      obtain ⟨_, hc⟩ := hx.mem hmem
      exact Key.ne_of_kindLetter_ne (by simp) (Change.put.inj hc).1
    have hafter : (e.episode session request).after.stores.document?
        (Key.history request.submission.device) = (session.stores.enactAll b fx).document?
          (Key.history request.submission.device) := by
      refine (ev.document?_enacted _).trans ?_
      rw [Memory.enactAll_append, Memory.document?_enactAll htrail]
    rw [hafter]
    generalize ((e.run request.submission request.clock.received).onSession session).1 = ran at hr
    cases hr with
    | refused ha =>
      rw [acceptedOn_self, accepted?, ha]
      rfl
    | accepted ha hj =>
      rw [← (ok_of_accept ha).device_eq, acceptedOn_of_accept ha] at hcal ⊢
      obtain ⟨horizon, hh⟩ := Option.ne_none_iff_exists'.mp (hcal _ List.mem_cons_self)
      obtain ⟨outcome, hran⟩ := hj.exists_outcome hh hs
      rw [hran] at hj
      exact (hj.makes hh).history_eq.trans (array_records _ hh).symm
  · rw [acceptedOn_of_ne hd]
    exact ((agreeOn_episode he session (Ne.symm hd)).document? _ (.history rfl)).symm

theorem document?_history_final (he : e.IsInMemory b) {start : Session Memory}
    (hs : ¬ start.stores.IsFaulty) {requests : List Request}
    (hcal : ∀ a ∈ e.acceptedOn device requests, a.now.sub? e.retention ≠ none) :
    (e.final start requests).stores.document? (Key.history device) =
      History.documentAfter e.retention (start.stores.document? (Key.history device))
        ((e.acceptedOn device requests).map Accepted.ingestion) := by
  induction requests generalizing start with
  | nil => rfl
  | cons request rest ih =>
    have hsplit : e.acceptedOn device (request :: rest) =
        e.acceptedOn device [request] ++ e.acceptedOn device rest :=
      acceptedOn_append [request] rest
    rw [hsplit] at hcal ⊢
    have sound := not_isFaulty_episode he hs request
    have hfirst := document?_history_episode he hs request
      fun a ha => hcal a (List.mem_append_left _ ha)
    have hrest := ih sound fun a ha => hcal a (List.mem_append_right _ ha)
    rw [hfirst] at hrest
    rw [List.map_append, History.documentAfter, List.foldl_append]
    exact hrest

/-- An episode starts from what the requests before its own one led to. -/
theorem getElem?_episodes {start : Session Memory} {requests : List Request} {n : Nat}
    {ep : Episode} (h : (e.episodes start requests)[n]? = some ep) :
    requests[n]? = some ep.request ∧
      ep = e.episode (e.final start (requests.take n)) ep.request := by
  induction requests generalizing start n with
  | nil => cases h
  | cons request rest ih =>
    cases n with
    | zero =>
      cases h
      exact ⟨rfl, rfl⟩
    | succ n => exact ih h

/-! ### What an accepted submission is judged on -/

theorem Accepts.isLegible {s : Submission} {received : Instant} {a : Accepted}
    (h : e.Accepts s received a) (hvalue : s.value.IsFinite) (hyear : a.now.HasPlainYear) :
    a.reading.IsLegible where
  value := BeaconTable.isFinite_resolve hvalue h.value
  year := h.timestamp_eq.symm ▸ hyear

/-- After a run the readings of an accepted submission are those that outlast the calls. -/
theorem ofRecords_records (he : e.IsInMemory b) {start : Session Memory}
    (hs : ¬ start.stores.IsFaulty) {requests : List Request} {a : Accepted}
    (hempty : History.recordsOf (start.stores.document? (Key.history a.reading.device)) = [])
    (hlegible : ∀ x ∈ e.acceptedOn a.reading.device requests ++ [a], x.reading.IsLegible)
    (hcal : ∀ x ∈ e.acceptedOn a.reading.device requests, x.now.sub? e.retention ≠ none)
    {horizon : Instant} (hh : a.now.sub? e.retention = some horizon) :
    Reading.ofRecords (a.records horizon (e.final start requests).stores) =
      (History.remaining e.retention
        ((e.acceptedOn a.reading.device requests ++ [a]).map Accepted.ingestion)).map
          Reading.truncated := by
  have hjoins : ∀ op ∈ (e.acceptedOn a.reading.device requests ++ [a]).map Accepted.ingestion,
      ∀ r ∈ op.reading?, r.IsLegible := by
    intro op hop r hr
    obtain ⟨x, hx, rfl⟩ := List.mem_map.mp hop
    cases hr
    exact hlegible x hx
  have hrecords := array_records (e.final start requests).stores hh
  rw [document?_history_final he hs hcal, History.documentAfter, History.documentAfter,
    ← List.foldl_append, ← List.map_singleton, ← List.map_append] at hrecords
  -- where there are no records it does not matter whether there is a document
  have hcalls : (e.acceptedOn a.reading.device requests ++ [a]).map Accepted.ingestion ≠ [] := by
    simp
  have hnone : History.recordsOf none = [] := rfl
  have hsame := (History.documentAfter_congr hcalls (hempty.trans hnone.symm)).symm.trans hrecords
  have hkept : a.records horizon (e.final start requests).stores = History.recordsOf _ :=
    (congrArg History.recordsOf hsame).symm
  rw [hkept]
  exact History.ofRecords_documentAfter_none hjoins

/-- The tally of a short rule after a run is that of all readings accepted in it. -/
theorem tally_final_of_recordsOf (he : e.IsInMemory b) {start : Session Memory}
    (hs : ¬ start.stores.IsFaulty) {requests : List Request} {a : Accepted}
    (hempty : History.recordsOf (start.stores.document? (Key.history a.reading.device)) = [])
    (hlegible : ∀ x ∈ e.acceptedOn a.reading.device requests ++ [a], x.reading.IsLegible)
    (hcal : ∀ x ∈ e.acceptedOn a.reading.device requests, x.now.sub? e.retention ≠ none)
    (hleap : ∀ x ∈ e.acceptedOn a.reading.device requests ++ [a], ¬ x.now.isLeap)
    (hle : ∀ x ∈ e.acceptedOn a.reading.device requests ++ [a], x.now ≤ a.now)
    (hperiod : a.rule.period = ⟨0⟩ ∨ 1000000000 ≤ a.rule.period.nanos)
    (hshort : 2 * a.rule.period.nanos ≤ e.retention.nanos) {horizon : Instant}
    (hh : a.now.sub? e.retention = some horizon) :
    a.tally horizon (e.final start requests).stores =
      a.rule.tally ((e.acceptedOn a.reading.device requests ++ [a]).map
        fun x => x.reading.truncated) a.now := by
  have hhorizon : ∀ op ∈ (e.acceptedOn a.reading.device requests ++ [a]).map Accepted.ingestion,
      ∀ earlier ∈ op.horizon? e.retention,
        earlier ≤ (Window.ending a.now a.rule.period).priorStart := by
    intro op hop earlier hearlier
    obtain ⟨x, hx, rfl⟩ := List.mem_map.mp hop
    exact Rule.le_priorStart hperiod hshort (hleap a (by simp)) (hleap x hx) (hle x hx) hearlier
  rw [Accepted.tally, ofRecords_records he hs hempty hlegible hcal hh,
    Rule.tally_remaining _ _ hhorizon, List.filterMap_map, List.map_filterMap]
  exact congrArg (a.rule.tally · a.now) (congrFun List.filterMap_eq_map' _)

theorem tally_final (he : e.IsInMemory b) {start : Session Memory} (hs : ¬ start.stores.IsFaulty)
    {requests : List Request} {a : Accepted}
    (hempty : start.stores.document? (Key.history a.reading.device) = none)
    (hlegible : ∀ x ∈ e.acceptedOn a.reading.device requests ++ [a], x.reading.IsLegible)
    (hcal : ∀ x ∈ e.acceptedOn a.reading.device requests, x.now.sub? e.retention ≠ none)
    (hleap : ∀ x ∈ e.acceptedOn a.reading.device requests ++ [a], ¬ x.now.isLeap)
    (hle : ∀ x ∈ e.acceptedOn a.reading.device requests ++ [a], x.now ≤ a.now)
    (hperiod : a.rule.period = ⟨0⟩ ∨ 1000000000 ≤ a.rule.period.nanos)
    (hshort : 2 * a.rule.period.nanos ≤ e.retention.nanos) {horizon : Instant}
    (hh : a.now.sub? e.retention = some horizon) :
    a.tally horizon (e.final start requests).stores =
      a.rule.tally ((e.acceptedOn a.reading.device requests ++ [a]).map
        fun x => x.reading.truncated) a.now := by
  have hrecords : History.recordsOf
      (start.stores.document? (Key.history a.reading.device)) = [] := by
    rw [hempty]
    rfl
  exact tally_final_of_recordsOf he hs hrecords hlegible hcal hleap hle hperiod hshort hh

theorem fst_settled_eq_pending_iff (a : Accepted) (m : Memory) (v : Verdict) :
    (e.settled b a m v).1 = .pending ↔ v = .pending := by
  cases v with
  | pending => simp [settled]
  | below certainty => simp [settled]
  | satisfied certainty =>
    rw [settled]
    split <;> simp

/-- Without faults the outcome of an accepted submission has its tally, and is pending if its
verdict is. -/
theorem exists_result_episode (he : e.IsInMemory b) {session : Session Memory}
    (hs : ¬ session.stores.IsFaulty) {request : Request} {a : Accepted}
    (ha : e.accept request.submission request.clock.received = .ok a) {horizon : Instant}
    (hh : a.now.sub? e.retention = some horizon) :
    ∃ kind, (e.episode session request).result = .ok (a.outcome horizon session.stores kind) ∧
      (kind = .pending ↔ a.verdict horizon session.stores = .pending) := by
  refine ⟨(e.settled b a session.stores (a.verdict horizon session.stores)).1, ?_,
    fst_settled_eq_pending_iff a _ _⟩
  rw [(episode_course he request hs).1]
  simp only [course, ran, ha, judged, hh]

/-- The retention time does not show in the evaluations of a rule that is short against it. In a
run without faults from an empty history, on submissions read from messages, let the accepted ones
about a device come in the order of their times. Then a rule with two periods within the retention
time counts what it would count on all readings of the device accepted so far, whatever rules these
came with. -/
theorem tally_unpruned {settings : Settings.Evaluation} (he : inMemory? b settings = some e)
    {start : Session Memory} (hs : ¬ start.stores.IsFaulty)
    (hempty : start.stores.document? (Key.history device) = none) {requests : List Request}
    (hread : ∀ request ∈ requests, ∃ text, Submission.ofText? text = some request.submission)
    (htimes : ∀ a ∈ e.acceptedOn device requests,
      a.now.HasPlainYear ∧ ¬ a.now.isLeap ∧ a.now.sub? e.retention ≠ none)
    (hsorted : (e.acceptedOn device requests).Pairwise fun a a' => a.now ≤ a'.now)
    {n : Nat} {ep : Episode} (hep : (e.episodes start requests)[n]? = some ep) {a : Accepted}
    (ha : e.accept ep.request.submission ep.request.clock.received = .ok a)
    (hdevice : ep.request.submission.device = device)
    (hshort : 2 * a.rule.period.nanos ≤ e.retention.nanos) :
    ∃ outcome, ep.result = .ok outcome ∧
      let tally := a.rule.tally ((e.acceptedOn device (requests.take (n + 1))).map
        fun x => x.reading.truncated) a.now
      outcome.tested = tally.tested ∧ outcome.satisfied = tally.satisfied ∧
        (outcome.kind = .pending ↔ a.rule.verdict tally = .pending) := by
  have hin := isInMemory_of_inMemory? he
  have haccepts := ok_of_accept ha
  obtain rfl : device = a.reading.device := hdevice.symm.trans haccepts.device_eq.symm
  obtain ⟨hn, hepisode⟩ := getElem?_episodes hep
  -- the accepted submissions so far are some earlier ones and the present one
  have hsub : (e.acceptedOn a.reading.device (requests.take (n + 1))).Sublist _ :=
    acceptedOn_take_sublist requests (n + 1)
  rw [acceptedOn_take_succ hn ha] at hsub
  have hle : ∀ x ∈ e.acceptedOn a.reading.device (requests.take n) ++ [a], x.now ≤ a.now := by
    have hcross := (List.pairwise_append.mp (hsorted.sublist hsub)).2.2
    refine List.forall_mem_append.mpr ⟨fun x hx => hcross x hx a (List.mem_singleton_self a), ?_⟩
    exact List.forall_mem_singleton.mpr (Instant.le_refl a.now)
  have hlegible : ∀ x ∈ e.acceptedOn a.reading.device (requests.take n) ++ [a],
      x.reading.IsLegible := by
    intro x hx
    obtain ⟨request, hrequest, -, hx'⟩ := exists_of_mem_acceptedOn (hsub.subset hx)
    obtain ⟨text, htext⟩ := hread request hrequest
    have hfinite := Submission.isFinite_value htext
    exact (ok_of_accept hx').isLegible hfinite (htimes x (hsub.subset hx)).1
  have hpresent := htimes a (hsub.subset (List.mem_append_right _ (List.mem_singleton_self a)))
  obtain ⟨horizon, hh⟩ := Option.ne_none_iff_exists'.mp hpresent.2.2
  obtain ⟨kind, hresult, hkind⟩ :=
    exists_result_episode hin (not_isFaulty_final hin hs (requests.take n)) ha hh
  have htally := tally_final hin hs hempty hlegible
    (fun x hx => (htimes x (hsub.subset (List.mem_append_left _ hx))).2.2)
    (fun x hx => (htimes x (hsub.subset hx)).2.1) hle haccepts.period_eq_or_le hshort hh
  refine ⟨a.outcome horizon _ kind, (congrArg Episode.result hepisode).trans hresult, ?_⟩
  rw [acceptedOn_take_succ hn ha, ← htally]
  exact ⟨rfl, rfl, hkind⟩

/-- Levels of which the first one leaves the history when the second one joins it. The rule of the
second one is not short, and its time is not kept to the last digit. -/
def prunedLevels : List Request :=
  let slow := Request.sample "2024-05-01T10:05:10.0000005Z"
  [.sample "2024-05-01T10:00:00Z",
    { slow with submission := { slow.submission with period := some 7200 } },
    .sample "2024-05-01T10:06:30Z"]

/-- The messages of these levels, in the form without names of fields. -/
def prunedTexts : List String := [
  "[\"boiler\",\"level\",3,\"2024-05-01T10:00:00Z\",\"low\",\"level\",null,null,4,0.5,60]",
  "[\"boiler\",\"level\",3,\"2024-05-01T10:05:10.0000005Z\",\"low\",\"level\"," ++
    "null,null,4,0.5,7200]",
  "[\"boiler\",\"level\",3,\"2024-05-01T10:06:30Z\",\"low\",\"level\",null,null,4,0.5,60]"]

/-- The last level is judged as if the first one had not left the history. -/
theorem tally_unpruned_of_prunedLevels :
    ∃ (ep : Episode) (a : Accepted) (outcome : Outcome),
      ((standard .documents).episodes (.fresh fun _ => none) prunedLevels)[2]? = some ep ∧
      (standard .documents).accept ep.request.submission ep.request.clock.received = .ok a ∧
      ep.result = .ok outcome ∧ outcome.kind ≠ .pending ∧
      (History.recordsOf (ep.after.stores.document? (Key.history "boiler"))).length = 2 ∧
      ((standard .documents).acceptedOn "boiler" prunedLevels).length = 3 ∧
      outcome.tested = (a.rule.tally (((standard .documents).acceptedOn "boiler" prunedLevels).map
        fun x => x.reading.truncated) a.now).tested := by
  have hread : ∀ request ∈ prunedLevels,
      ∃ text, Submission.ofText? text = some request.submission := by
    have htexts : prunedTexts.map Submission.ofText? =
        prunedLevels.map fun request => some request.submission := by decide +kernel
    intro request hrequest
    have hmem : some request.submission ∈ prunedTexts.map Submission.ofText? := by
      rw [htexts]
      exact List.mem_map_of_mem hrequest
    obtain ⟨text, -, htext⟩ := List.mem_map.mp hmem
    exact ⟨text, htext⟩
  have hlast : (((standard .documents).episodes (.fresh fun _ => none) prunedLevels)[2]?.any
      fun ep => ep.kind? != some .pending && ((History.recordsOf
        (ep.after.stores.document? (Key.history "boiler"))).length == 2)) = true := by
    decide +kernel
  have haccepted : (((standard .documents).accepted? (.sample "2024-05-01T10:06:30Z")).any
      fun a => 2 * a.rule.period.nanos ≤ (standard .documents).retention.nanos) = true := by
    decide +kernel
  obtain ⟨ep, hep, hshown⟩ := (Option.any_eq_true _ _).mp hlast
  obtain ⟨a, ha, hshort⟩ := (Option.any_eq_true _ _).mp haccepted
  have hrequest : ep.request = .sample "2024-05-01T10:06:30Z" :=
    (Option.some.inj (getElem?_episodes hep).1).symm
  rw [← hrequest] at ha
  have hempty : (Session.fresh fun _ => none).stores.document? (Key.history "boiler") = none := rfl
  obtain ⟨outcome, hresult, htested, -, -⟩ := tally_unpruned (inMemory?_default .documents)
    Session.not_isFaulty_fresh hempty hread (by decide +kernel) (by decide +kernel) hep
    (eq_ok_of_toOption ha) (by rw [hrequest]; rfl) (of_decide_eq_true hshort)
  obtain ⟨hkind, hlength⟩ := (Bool.and_eq_true _ _).mp hshown
  refine ⟨ep, a, outcome, hep, eq_ok_of_toOption ha, hresult, ?_, eq_of_beq hlength,
    by decide +kernel, htested⟩
  intro hpending
  rw [Episode.kind?_eq_some_iff.mpr ⟨outcome, hresult, hpending⟩] at hkind
  cases hkind

end Evaluator

end TriggerWatch
