import Mathlib.Data.List.Chain
import TriggerWatch.Proofs.ShortWindows

/-!
# A regular reporter is judged

A rule waits until the history reaches back before its window. Where a device reports an attribute
at least once in every period, and its first report lies before the window, one of the reports lies
in the period before the window: the last one that is not in the window itself. That report is still
in the history, however many readings were removed since.

## Main definitions

- `Evaluator.timesOn` — the times of the accepted readings of an attribute

## Main statements

- `Instant.exists_mem_between` — a list without long gaps does not skip a period
- `Rule.isCovered_of_isChain` — regular readings cover a rule
- `Evaluator.kind_ne_pending_of_isChain` — a regular reporter has no pending outcome
-/

namespace TriggerWatch

open Memory (Backing)

variable {b : Backing} {e : Evaluator Memory} {a : Accepted}

/-! ### Lists without long gaps -/

namespace Instant

/-- Instants that begin before a bound and reach it in steps of at most one period do not skip the
period before the bound. -/
theorem exists_mem_between {period bound : Int} {t : Instant} {rest : List Instant}
    (hgaps : List.IsChain (fun s t => t.toNanos - s.toNanos ≤ period) (t :: rest))
    (hearly : t.toNanos < bound) (hreach : ∃ u ∈ t :: rest, bound ≤ u.toNanos) :
    ∃ u ∈ t :: rest, bound - period ≤ u.toNanos ∧ u.toNanos < bound := by
  induction rest generalizing t with
  | nil =>
    obtain ⟨u, hu, hlate⟩ := hreach
    cases List.mem_singleton.mp hu
    omega
  | cons next rest ih =>
    obtain ⟨hgap, hgaps⟩ := List.isChain_cons_cons.mp hgaps
    by_cases hnext : next.toNanos < bound
    · obtain ⟨u, hu, hlate⟩ := hreach
      have hrest : u ∈ next :: rest := (List.mem_cons.mp hu).resolve_left fun heq => by
        rw [heq] at hlate
        omega
      obtain ⟨v, hv, hbetween⟩ := ih hgaps hnext ⟨u, hrest, hlate⟩
      exact ⟨v, List.mem_cons_of_mem _ hv, hbetween⟩
    -- the bound is reached in one step from here
    · exact ⟨t, List.mem_cons_self, by omega, hearly⟩

theorem toNanos_of_sub? {t u : Instant} {d : Span} (ht : ¬ t.isLeap) (hd : 0 ≤ d.nanos)
    (h : t.sub? d = some u) : ¬ u.isLeap ∧ u.toNanos = t.toNanos - d.nanos := by
  rw [sub?_of_nonneg hd, if_neg fun hl => ht hl.1] at h
  exact ⟨not_isLeap_of_ofNanos? h, toNanos_of_ofNanos? h⟩

/-- Less than a microsecond is cut off. -/
theorem toNanos_truncated (t : Instant) :
    t.toNanos - 1000 < t.truncated.toNanos ∧ t.truncated.toNanos ≤ t.toNanos := by
  simp only [toNanos, truncated]
  omega

end Instant

/-! ### Regular readings -/

/-- Readings in steps of at most one period cover a rule whose two periods lie in the calendar. -/
theorem Rule.isCovered_of_isChain {r : Rule} {now start prior first : Instant}
    {rest : List Instant} {readings : List Reading} (hperiod : 1000000000 ≤ r.period.nanos)
    (hleap : ¬ now.isLeap) (hstart : now.sub? r.period = some start)
    (hprior : now.sub? ⟨2 * r.period.nanos⟩ = some prior)
    (htimes : (r.watched readings).map Reading.timestamp = first :: rest)
    (hplain : ∀ x ∈ r.watched readings, ¬ x.timestamp.isLeap)
    (hgaps : List.IsChain (fun s t => t.toNanos - s.toNanos ≤ r.period.nanos) (first :: rest))
    (hearly : first.toNanos < now.toNanos - r.period.nanos)
    (hpresent : now.truncated ∈ first :: rest) : r.IsCovered readings now := by
  obtain ⟨hs, hstartAt⟩ := Instant.toNanos_of_sub? hleap (by omega) hstart
  obtain ⟨hp, hpriorAt⟩ := Instant.toNanos_of_sub? hleap (by simp only; omega) hprior
  have hreach : now.toNanos - r.period.nanos ≤ now.truncated.toNanos := by
    have := (Instant.toNanos_truncated now).1
    omega
  obtain ⟨t, ht, hlate, hbefore⟩ :=
    Instant.exists_mem_between hgaps hearly ⟨now.truncated, hpresent, hreach⟩
  rw [← htimes] at ht
  obtain ⟨x, hx, rfl⟩ := List.mem_map.mp ht
  refine ⟨x, hx, ?_, ?_⟩
  · rw [priorStart, hprior, Option.getD_some, Instant.le_iff_toNanos_le hp (hplain x hx)]
    simp only at hpriorAt
    omega
  · rw [windowStart, hstart, Option.getD_some, Instant.lt_iff_toNanos_lt (hplain x hx) hs]
    omega

namespace Evaluator

variable {device : String}

/-- The times of the accepted readings of an attribute of a device, up to the microsecond. -/
def timesOn (e : Evaluator Memory) (device attr : String) (requests : List Request) :
    List Instant :=
  ((e.acceptedOn device requests).filter fun x => x.reading.attr == attr).map
    fun x => x.reading.timestamp.truncated

theorem map_timestamp_watched (r : Rule) (requests : List Request) :
    (r.watched ((e.acceptedOn device requests).map fun x => x.reading.truncated)).map
      Reading.timestamp = e.timesOn device r.attr requests := by
  rw [Rule.watched, List.filter_map, List.map_map]
  rfl

theorem not_isLeap_of_mem_watched {r : Rule} {requests : List Request}
    (hleap : ∀ x ∈ e.acceptedOn device requests, ¬ x.now.isLeap) :
    ∀ x ∈ r.watched ((e.acceptedOn device requests).map fun x => x.reading.truncated),
      ¬ x.timestamp.isLeap := by
  intro x hx
  obtain ⟨y, hy, rfl⟩ := List.mem_map.mp (List.mem_filter.mp hx).1
  obtain ⟨request, -, -, haccept⟩ := exists_of_mem_acceptedOn hy
  have htime := (ok_of_accept haccept).timestamp_eq
  exact Instant.not_isLeap_truncated (htime ▸ hleap y hy)

/-- What an accepted submission is judged on in a run whose readings come in the order of their
times: its rule is pending if it is on all readings accepted so far. -/
theorem exists_result_of_sorted (he : e.IsInMemory b) {start : Session Memory}
    (hs : ¬ start.stores.IsFaulty) {requests : List Request} {n : Nat} {ep : Episode}
    (hread : ∀ request ∈ requests, ∃ text, Submission.ofText? text = some request.submission)
    (hep : (e.episodes start requests)[n]? = some ep)
    (ha : e.accept ep.request.submission ep.request.clock.received = .ok a)
    (hempty : History.recordsOf (start.stores.document? (Key.history a.reading.device)) = [])
    (htimes : ∀ x ∈ e.acceptedOn a.reading.device (requests.take (n + 1)),
      x.now.HasPlainYear ∧ ¬ x.now.isLeap ∧ x.now.sub? e.retention ≠ none)
    (hsorted : (e.acceptedOn a.reading.device (requests.take (n + 1))).Pairwise
      fun x y => x.now ≤ y.now)
    (hshort : 2 * a.rule.period.nanos ≤ e.retention.nanos) :
    ∃ outcome, ep.result = .ok outcome ∧ (outcome.kind = .pending ↔
      a.rule.verdict (a.rule.tally ((e.acceptedOn a.reading.device (requests.take (n + 1))).map
        fun x => x.reading.truncated) a.now) = .pending) := by
  obtain ⟨hn, hepisode⟩ := getElem?_episodes hep
  have hsofar := acceptedOn_take_succ hn ha
  have hlegible : ∀ x ∈ e.acceptedOn a.reading.device (requests.take (n + 1)),
      x.reading.IsLegible := by
    intro x hx
    obtain ⟨request, hrequest, -, hx'⟩ := exists_of_mem_acceptedOn hx
    obtain ⟨text, htext⟩ := hread request (List.mem_of_mem_take hrequest)
    exact (ok_of_accept hx').isLegible (Submission.isFinite_value htext) (htimes x hx).1
  rw [hsofar] at htimes hsorted hlegible ⊢
  have hpresent := htimes a (List.mem_append_right _ (List.mem_singleton_self a))
  have hle : ∀ x ∈ e.acceptedOn a.reading.device (requests.take n) ++ [a], x.now ≤ a.now := by
    have hcross := (List.pairwise_append.mp hsorted).2.2
    refine List.forall_mem_append.mpr ⟨fun x hx => hcross x hx a (List.mem_singleton_self a), ?_⟩
    exact List.forall_mem_singleton.mpr (Instant.le_refl a.now)
  obtain ⟨horizon, hh⟩ := Option.ne_none_iff_exists'.mp hpresent.2.2
  obtain ⟨kind, hresult, hkind⟩ :=
    exists_result_episode he (not_isFaulty_final he hs (requests.take n)) ha hh
  have htally := tally_final_of_recordsOf he hs hempty hlegible
    (fun x hx => (htimes x (List.mem_append_left _ hx)).2.2) (fun x hx => (htimes x hx).2.1) hle
    (ok_of_accept ha).period_eq_or_le hshort hh
  refine ⟨a.outcome horizon _ kind, (congrArg Episode.result hepisode).trans hresult, ?_⟩
  rw [← htally]
  exact hkind

/-- A regular reporter is judged. In a run without faults that begins with an empty history, on
submissions read from messages, let the accepted ones about a device come in the order of their
times. If the times of the attribute so far begin before the window of the present rule and never
lie further apart than its period, then the outcome is not pending, for a rule on the attribute of
its own reading with a period of a second or more and with two periods within the retention
time. -/
theorem kind_ne_pending_of_isChain {settings : Settings.Evaluation}
    (he : inMemory? b settings = some e) {start : Session Memory} (hs : ¬ start.stores.IsFaulty)
    (hempty : History.recordsOf (start.stores.document? (Key.history device)) = [])
    {requests : List Request}
    (hread : ∀ request ∈ requests, ∃ text, Submission.ofText? text = some request.submission)
    {n : Nat} {ep : Episode} (hep : (e.episodes start requests)[n]? = some ep)
    (ha : e.accept ep.request.submission ep.request.clock.received = .ok a)
    (hdevice : ep.request.submission.device = device)
    (htimes : ∀ x ∈ e.acceptedOn device (requests.take (n + 1)),
      x.now.HasPlainYear ∧ ¬ x.now.isLeap ∧ x.now.sub? e.retention ≠ none)
    (hsorted : (e.acceptedOn device (requests.take (n + 1))).Pairwise fun x y => x.now ≤ y.now)
    (hattr : ep.request.submission.attr = ep.request.submission.triggerAttr)
    (hperiod : 1000000000 ≤ a.rule.period.nanos)
    (hshort : 2 * a.rule.period.nanos ≤ e.retention.nanos)
    {first : Instant} {rest : List Instant}
    (hreports : e.timesOn device ep.request.submission.triggerAttr (requests.take (n + 1)) =
      first :: rest)
    (hearly : first.toNanos < a.now.toNanos - a.rule.period.nanos)
    (hgaps : List.IsChain (fun s t => t.toNanos - s.toNanos ≤ a.rule.period.nanos)
      (first :: rest)) :
    ∃ outcome, ep.result = .ok outcome ∧ outcome.kind ≠ .pending := by
  have hin := isInMemory_of_inMemory? he
  have haccepts := ok_of_accept ha
  have hrule := (Submission.ok_of_rule haccepts.rule).attr_eq
  obtain rfl : device = a.reading.device := hdevice.symm.trans haccepts.device_eq.symm
  obtain ⟨outcome, hresult, hkind⟩ :=
    exists_result_of_sorted hin hs hread hep ha hempty htimes hsorted hshort
  refine ⟨outcome, hresult, fun hpending => ?_⟩
  have hmem : a ∈ e.acceptedOn a.reading.device (requests.take (n + 1)) := by
    rw [acceptedOn_take_succ (getElem?_episodes hep).1 ha]
    exact List.mem_append_right _ (List.mem_singleton_self a)
  obtain ⟨-, hleap, hcal⟩ := htimes a hmem
  obtain ⟨horizon, hh⟩ := Option.ne_none_iff_exists'.mp hcal
  -- both begins lie in the calendar, for the horizon does
  obtain ⟨start, hstart, -⟩ : ∃ start, a.now.sub? a.rule.period = some start ∧ horizon ≤ start :=
    Instant.exists_sub? hleap hleap (Instant.le_refl _) (by omega) (by omega) hh
  obtain ⟨prior, hprior, -⟩ :
      ∃ prior, a.now.sub? ⟨2 * a.rule.period.nanos⟩ = some prior ∧ horizon ≤ prior :=
    Instant.exists_sub? hleap hleap (Instant.le_refl _) (by simp only; omega) hshort hh
  rw [← hrule] at hreports
  have hpresent : a.now.truncated ∈ first :: rest := by
    rw [← hreports, ← haccepts.timestamp_eq]
    refine List.mem_map_of_mem (List.mem_filter.mpr ⟨hmem, beq_iff_eq.mpr ?_⟩)
    rw [haccepts.attr_eq, hrule, hattr]
  have hcovered := Rule.isCovered_of_isChain hperiod hleap hstart hprior
    ((map_timestamp_watched a.rule _).trans hreports)
    (not_isLeap_of_mem_watched fun x hx => (htimes x hx).2.1) hgaps hearly hpresent
  have huncovered := Rule.not_covered_of_pending (hkind.mp hpending)
  rw [(Rule.covered_iff haccepts.period_eq_or_le _).mpr hcovered] at huncovered
  cases huncovered

/-- A reading of 3 with a rule that looks for readings below 4 within two minutes. -/
def regularLevel (timestamp : String) : Request :=
  let request := Request.sample timestamp
  { request with submission := { request.submission with period := some 120 } }

/-- Times that are two minutes apart. -/
def regularTimes : List String :=
  ["2024-05-01T10:00:00Z", "2024-05-01T10:02:00Z", "2024-05-01T10:04:00Z", "2024-05-01T10:06:00Z"]

/-- The message of a level, in the form without names of fields. -/
def regularText (timestamp : String) : String :=
  "[\"boiler\",\"level\",3,\"" ++ timestamp ++ "\",\"low\",\"level\",null,null,4,0.5,120]"

/-- The last level is judged on the second one, although the first one has left the history. -/
theorem kind_ne_pending_of_regularLevels :
    ∃ (ep : Episode) (outcome : Outcome),
      ((standard .apart).episodes (.fresh fun _ => none)
        (regularTimes.map regularLevel))[3]? = some ep ∧
      ((standard .apart).timesOn "boiler" "level" (regularTimes.map regularLevel)).length = 4 ∧
      (History.recordsOf (ep.after.stores.document? (Key.history "boiler"))).length = 3 ∧
      ep.result = .ok outcome ∧ outcome.kind ≠ .pending := by
  have hread : ∀ request ∈ regularTimes.map regularLevel,
      ∃ text, Submission.ofText? text = some request.submission := by
    have htexts : regularTimes.map (fun time => Submission.ofText? (regularText time)) =
        regularTimes.map fun time => some (regularLevel time).submission := by decide +kernel
    intro request hrequest
    obtain ⟨time, htime, rfl⟩ := List.mem_map.mp hrequest
    exact ⟨regularText time, List.map_inj_left.mp htexts time htime⟩
  have hlast : (((standard .apart).episodes (.fresh fun _ => none)
      (regularTimes.map regularLevel))[3]?.any fun ep => (History.recordsOf
        (ep.after.stores.document? (Key.history "boiler"))).length == 3) = true := by
    decide +kernel
  have haccepted : (((standard .apart).accepted? (regularLevel "2024-05-01T10:06:00Z")).any
      fun a => a.rule.period.nanos == 120000000000 &&
        ((standard .apart).timesOn "boiler" "level" (regularTimes.map regularLevel)).head?.any
          fun first => first.toNanos < a.now.toNanos - 120000000000) = true := by
    decide +kernel
  have hgaps : List.IsChain (fun s t => t.toNanos - s.toNanos ≤ 120000000000)
      ((standard .apart).timesOn "boiler" "level" (regularTimes.map regularLevel)) := by
    decide +kernel
  obtain ⟨ep, hep, hshown⟩ := (Option.any_eq_true _ _).mp hlast
  obtain ⟨a, ha, hshape⟩ := (Option.any_eq_true _ _).mp haccepted
  obtain ⟨hperiod, hfirst⟩ := (Bool.and_eq_true _ _).mp hshape
  obtain ⟨first, hhead, hearly⟩ := (Option.any_eq_true _ _).mp hfirst
  obtain ⟨rest, hreports⟩ := List.head?_eq_some_iff.mp hhead
  have hperiod : a.rule.period.nanos = 120000000000 := eq_of_beq hperiod
  have hrequest : ep.request = regularLevel "2024-05-01T10:06:00Z" :=
    (Option.some.inj (getElem?_episodes hep).1).symm
  rw [← hrequest] at ha
  rw [hreports] at hgaps
  have hempty : History.recordsOf
      ((Session.fresh fun _ => none).stores.document? (Key.history "boiler")) = [] := rfl
  have hretention : 2 * 120000000000 ≤ (standard .apart).retention.nanos := by decide
  obtain ⟨outcome, hresult, hkind⟩ := kind_ne_pending_of_isChain (inMemory?_default .apart)
    Session.not_isFaulty_fresh hempty hread hep (eq_ok_of_toOption ha) (by rw [hrequest]; rfl)
    (by decide +kernel) (by decide +kernel) (by rw [hrequest]; rfl) (by omega) (by omega)
    (by rw [hrequest]; exact hreports) (by rw [hperiod]; exact of_decide_eq_true hearly)
    (by rw [hperiod]; exact hgaps)
  exact ⟨ep, outcome, hep, by decide +kernel, eq_of_beq hshown, hresult, hkind⟩

end Evaluator

end TriggerWatch
