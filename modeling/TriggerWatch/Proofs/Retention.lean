import TriggerWatch.Proofs.Behavior
import TriggerWatch.Proofs.Instants
import TriggerWatch.Proofs.Readings

/-!
# What stays in a history

A history is changed by three calls, and each of them rewrites it as a whole. The times at which old
readings are removed come with the calls and may come in any order, so a call can remove less than
one before it. What stays after all calls is still found in one pass: a reading stays if it is not
older than the horizon of any call from its own one on.

## Main definitions

- `History.Operation` — a call that changes the history of a device
- `History.Operation.revised` — the records after a call
- `History.performAll` — calls in sequence
- `History.Outlasts`, `History.remaining` — which readings stay

## Main statements

- `History.foldl_revised` — the records after several calls are the readings that stay
- `History.perform_responds` — a call replaces the history of its device
- `History.performAll_remaining` — the histories after calls from empty ones
-/

namespace TriggerWatch

open Memory (Backing Responds)

namespace History

/-- A call that changes the history of a device. -/
inductive Operation where
  /-- A reading joins the history. -/
  | append (device : String) (reading : Reading)
  /-- Old readings leave the history. -/
  | prune (device : String) (now : Instant)
  /-- A reading joins the history, and old readings leave it. -/
  | ingest (device : String) (reading : Reading) (now : Instant)

namespace Operation

def device : Operation → String
  | append device _ => device
  | prune device _ => device
  | ingest device _ _ => device

/-- The reading that joins the history. -/
def reading? : Operation → Option Reading
  | append _ reading => some reading
  | prune _ _ => none
  | ingest _ reading _ => some reading

/-- The time at which old readings leave the history. -/
def now? : Operation → Option Instant
  | append _ _ => none
  | prune _ now => some now
  | ingest _ _ now => some now

/-- The time before which readings are too old for a call. -/
def horizon? (retention : Span) (op : Operation) : Option Instant :=
  op.now?.bind fun now => now.sub? retention

/-- The records of its device after a call. -/
def revised (retention : Span) (op : Operation) (records : List Json) : List Json :=
  let joined := records ++ (op.reading?.map Reading.toJson).toList
  match op.horizon? retention with
  | some horizon => keepRecent horizon joined
  | none => joined

/-- Make a call. -/
def perform {σ : Type} (docs : Documents σ) (retention : Span) :
    Operation → Action σ StoreFailure Unit
  | append device reading => History.append docs device reading
  | prune device now => do
    let _ ← History.prune docs retention device now
  | ingest device reading now => do
    let _ ← History.ingest docs retention device reading now

/-- The calls on the history of a device. -/
def on (device : String) (ops : List Operation) : List Operation :=
  ops.filter fun op => op.device == device

end Operation

/-- Make calls one after the other. -/
def performAll {σ : Type} (docs : Documents σ) (retention : Span) (ops : List Operation) :
    Action σ StoreFailure Unit :=
  ops.forM (Operation.perform docs retention)

/-- A reading, up to the microsecond, is not too old for any of the calls. -/
def Outlasts (retention : Span) (ops : List Operation) (r : Reading) : Prop :=
  ∀ op ∈ ops, ∀ horizon ∈ op.horizon? retention, horizon ≤ r.timestamp.truncated

instance (retention : Span) (ops : List Operation) : DecidablePred (Outlasts retention ops) :=
  fun _ => inferInstanceAs (Decidable (∀ op ∈ ops, ∀ horizon ∈ _, _))

/-- The readings that outlast the calls from their own one on, in the order of the calls. -/
def remaining (retention : Span) : List Operation → List Reading
  | [] => []
  | op :: rest =>
    op.reading?.toList.filter (fun r => Outlasts retention (op :: rest) r) ++
      remaining retention rest

variable {retention : Span}

theorem exists_reading?_of_mem_remaining {ops : List Operation} {r : Reading}
    (h : r ∈ remaining retention ops) : ∃ op ∈ ops, r ∈ op.reading? := by
  induction ops with
  | nil => cases h
  | cons op rest ih =>
    rcases List.mem_append.mp h with hr | hr
    · exact ⟨op, List.mem_cons_self, Option.mem_toList.mp (List.mem_filter.mp hr).1⟩
    · obtain ⟨op', hop, hread⟩ := ih hr
      exact ⟨op', List.mem_cons_of_mem _ hop, hread⟩

/-- No call removes a reading that is not older than the horizons of all calls. -/
theorem filter_remaining {ops : List Operation} {bound : Instant} {p : Reading → Bool}
    (hbound : ∀ op ∈ ops, ∀ horizon ∈ op.horizon? retention, horizon ≤ bound)
    (hp : ∀ r, p r = true → bound ≤ r.timestamp.truncated) :
    (remaining retention ops).filter p = (ops.filterMap Operation.reading?).filter p := by
  induction ops with
  | nil => rfl
  | cons op rest ih =>
    have hrest := ih fun o ho => hbound o (List.mem_cons_of_mem _ ho)
    have hfirst : (op.reading?.toList.filter fun r => Outlasts retention (op :: rest) r).filter p =
        op.reading?.toList.filter p := by
      rw [List.filter_filter]
      refine List.filter_congr fun r _ => ?_
      by_cases hr : p r = true
      · have houtlasts : Outlasts retention (op :: rest) r := fun o ho horizon hh =>
          Instant.le_trans (hbound o ho horizon hh) (hp r hr)
        rw [hr, decide_eq_true houtlasts]
        rfl
      · rw [Bool.eq_false_iff.mpr hr]
        rfl
    rw [remaining, filterMap_cons_eq_append, List.filter_append, List.filter_append, hrest, hfirst]

/-! ### The records after calls -/

theorem outlasts_cons {op : Operation} {rest : List Operation} {r : Reading} :
    Outlasts retention (op :: rest) r ↔
      (∀ horizon ∈ op.horizon? retention, horizon ≤ r.timestamp.truncated) ∧
        Outlasts retention rest r :=
  List.forall_mem_cons

/-- Among written readings a horizon picks those that are not older. -/
theorem keepRecent_toJson (horizon : Instant) {rs : List Reading}
    (h : ∀ r ∈ rs, r.timestamp.HasPlainYear) :
    keepRecent horizon (rs.map Reading.toJson) =
      (rs.filter fun r => horizon ≤ r.timestamp.truncated).map Reading.toJson := by
  rw [keepRecent, List.filter_map]
  refine congrArg (List.map Reading.toJson) (List.filter_congr fun r hr => ?_)
  rw [Function.comp_apply, isRecent, timestamp?_toJson (h r hr)]

/-- After a call the records are the readings from before and its own one, as far as they are not
too old for it. -/
theorem revised_toJson {op : Operation} {rs : List Reading}
    (hrs : ∀ r ∈ rs, r.timestamp.HasPlainYear)
    (hop : ∀ r ∈ op.reading?, r.timestamp.HasPlainYear) :
    op.revised retention (rs.map Reading.toJson) =
      ((rs ++ op.reading?.toList).filter fun r =>
        ∀ horizon ∈ op.horizon? retention, horizon ≤ r.timestamp.truncated).map
          Reading.toJson := by
  have hjoined : rs.map Reading.toJson ++ (op.reading?.map Reading.toJson).toList =
      (rs ++ op.reading?.toList).map Reading.toJson := by
    rw [List.map_append, Option.toList_map]
  have hplain : ∀ r ∈ rs ++ op.reading?.toList, r.timestamp.HasPlainYear := by
    intro r hr
    rcases List.mem_append.mp hr with hr | hr
    · exact hrs r hr
    · exact hop r (Option.mem_toList.mp hr)
  simp only [Operation.revised, hjoined]
  cases op.horizon? retention with
  | none =>
    rw [List.filter_eq_self.mpr (by simp)]
  | some horizon =>
    simp only [Option.mem_def, Option.some.injEq, forall_eq']
    exact keepRecent_toJson horizon hplain

/-- After several calls the records are the readings from before that outlast all of them and the
joining ones that outlast the calls from their own one on. -/
theorem foldl_revised {ops : List Operation} {rs : List Reading}
    (hops : ∀ op ∈ ops, ∀ r ∈ op.reading?, r.timestamp.HasPlainYear)
    (hrs : ∀ r ∈ rs, r.timestamp.HasPlainYear) :
    ops.foldl (fun records op => op.revised retention records) (rs.map Reading.toJson) =
      (rs.filter (fun r => Outlasts retention ops r) ++ remaining retention ops).map
        Reading.toJson := by
  induction ops generalizing rs with
  | nil =>
    rw [List.filter_eq_self.mpr (by simp [Outlasts]), remaining, List.append_nil]
    rfl
  | cons op rest ih =>
    have hop := hops op List.mem_cons_self
    -- what the first call leaves is what the others start from
    have hleft : ∀ r ∈ (rs ++ op.reading?.toList).filter fun r =>
        ∀ horizon ∈ op.horizon? retention, horizon ≤ r.timestamp.truncated,
        r.timestamp.HasPlainYear := by
      intro r hr
      rcases List.mem_append.mp (List.mem_filter.mp hr).1 with hr | hr
      · exact hrs r hr
      · exact hop r (Option.mem_toList.mp hr)
    have htwice (r : Reading) :
        (decide (Outlasts retention rest r) &&
          decide (∀ horizon ∈ op.horizon? retention, horizon ≤ r.timestamp.truncated)) =
        decide (Outlasts retention (op :: rest) r) := by
      rw [Bool.and_comm, ← Bool.decide_and]
      exact decide_eq_decide.mpr outlasts_cons.symm
    rw [List.foldl_cons, revised_toJson hrs hop,
      ih (fun o ho => hops o (List.mem_cons_of_mem _ ho)) hleft, List.filter_filter,
      List.filter_append]
    simp only [htwice, remaining, List.append_assoc]

/-- The document of a history after calls on it. -/
def documentAfter (retention : Span) (document : Option Json) (ops : List Operation) :
    Option Json :=
  ops.foldl (fun document op => some (.array (op.revised retention (recordsOf document)))) document

theorem documentAfter_eq {ops : List Operation} (h : ops ≠ []) (document : Option Json) :
    documentAfter retention document ops = some (.array
      (ops.foldl (fun records op => op.revised retention records) (recordsOf document))) := by
  induction ops generalizing document with
  | nil => exact absurd rfl h
  | cons op rest ih =>
    rw [List.foldl_cons]
    cases rest with
    | nil => rfl
    | cons next rest => exact ih (List.cons_ne_nil _ _) _

/-- The records before calls are all that matters of a document. -/
theorem documentAfter_congr {ops : List Operation} (h : ops ≠ []) {document document' : Option Json}
    (hrecords : recordsOf document = recordsOf document') :
    documentAfter retention document ops = documentAfter retention document' ops := by
  rw [documentAfter_eq h, documentAfter_eq h, hrecords]

/-- A history that was not there holds after calls the readings that outlast them. -/
theorem documentAfter_none {ops : List Operation}
    (h : ∀ op ∈ ops, ∀ r ∈ op.reading?, r.timestamp.HasPlainYear) :
    documentAfter retention none ops = if ops.isEmpty then none
      else some (.array ((remaining retention ops).map Reading.toJson)) := by
  by_cases hops : ops = []
  · rw [hops]
    rfl
  · have hrecords : ops.foldl (fun records op => op.revised retention records) [] =
        (remaining retention ops).map Reading.toJson :=
      foldl_revised h (List.forall_mem_nil _)
    rw [documentAfter_eq hops, if_neg (by simpa using hops)]
    exact congrArg (fun records => some (Json.array records)) hrecords

theorem recordsOf_documentAfter_none {ops : List Operation}
    (h : ∀ op ∈ ops, ∀ r ∈ op.reading?, r.timestamp.HasPlainYear) :
    recordsOf (documentAfter retention none ops) =
      (remaining retention ops).map Reading.toJson := by
  rw [documentAfter_none h]
  by_cases hops : ops = []
  · rw [hops]
    rfl
  · rw [if_neg (by simpa using hops)]
    rfl

/-- The readings that stay are read back. -/
theorem ofRecords_documentAfter_none {ops : List Operation}
    (h : ∀ op ∈ ops, ∀ r ∈ op.reading?, r.IsLegible) :
    Reading.ofRecords (recordsOf (documentAfter retention none ops)) =
      (remaining retention ops).map Reading.truncated := by
  rw [recordsOf_documentAfter_none fun op hop r hr => (h op hop r hr).year]
  refine Reading.ofRecords_toJson fun r hr => ?_
  obtain ⟨op, hop, hjoins⟩ := exists_reading?_of_mem_remaining hr
  exact h op hop r hjoins

/-! ### The calls on stores in memory -/

variable {b : Backing}

theorem load_responds (device : String) :
    Behaves b (load Memory.documentStore device)
      (Responds (fun m => recordsOf (m.document? (Key.history device))) fun _ => []) :=
  Responds.map recordsOf (Memory.getDocument_responds _)

/-- A call whose horizon lies in the calendar reads the history of its device and writes it. -/
theorem Operation.perform_eq {σ : Type} (docs : Documents σ) {op : Operation}
    (h : ∀ now ∈ op.now?, now.sub? retention ≠ none) :
    op.perform docs retention = (do
      let records ← load docs op.device
      save docs op.device (op.revised retention records)) := by
  cases op with
  | append device reading => rfl
  | prune device now =>
    obtain ⟨horizon, hs⟩ := Option.ne_none_iff_exists'.mp (h now rfl)
    have hrevised (records : List Json) : (Operation.prune device now).revised retention records =
        keepRecent horizon records := by
      simp [revised, horizon?, now?, reading?, hs]
    simp only [perform, History.prune, hs, Action.inCalendar, pure_bind, bind_assoc, bind_pure_unit,
      hrevised, Operation.device]
  | ingest device reading now =>
    obtain ⟨horizon, hs⟩ := Option.ne_none_iff_exists'.mp (h now rfl)
    have hrevised (records : List Json) :
        (Operation.ingest device reading now).revised retention records =
          keepRecent horizon (records ++ [reading.toJson]) := by
      simp [revised, horizon?, now?, reading?, hs]
    simp only [perform, History.ingest, hs, Action.inCalendar, pure_bind, bind_assoc,
      bind_pure_unit, hrevised, Operation.device]

theorem perform_responds {op : Operation} (h : ∀ now ∈ op.now?, now.sub? retention ≠ none) :
    Behaves b (op.perform Memory.documentStore retention)
      (Responds (fun _ => ()) fun m => [.put (Key.history op.device)
        (.array (op.revised retention (recordsOf (m.document? (Key.history op.device)))))]) := by
  rw [Operation.perform_eq _ h]
  exact Responds.bind (load_responds op.device)
    (fun records => Memory.putDocument_responds _ _) fun _ => ⟨rfl, rfl⟩

/-- The history of a device after a call: only a call on that device changes it. -/
theorem document?_perform {op : Operation} {m m' : Memory} {device : String}
    (ev : m.Evolves b [.put (Key.history op.device)
      (.array (op.revised retention (recordsOf (m.document? (Key.history op.device)))))] m') :
    m'.document? (Key.history device) =
      documentAfter retention (m.document? (Key.history device)) (Operation.on device [op]) := by
  rw [ev.document?_enacted]
  by_cases hd : op.device = device
  · have hon : Operation.on device [op] = [op] := by simp [Operation.on, hd]
    rw [hon, ← hd]
    exact (Memory.document?_put (b := b) _ _ _).trans (if_pos rfl)
  · have hon : Operation.on device [op] = [] := by simp [Operation.on, hd]
    rw [hon]
    exact (Memory.document?_put (b := b) _ _ _).trans (if_neg fun hk => hd (Key.history_inj hk))

/-- Without faults all calls are made, and the history of a device is what those on it make. -/
theorem performAll_documentAfter {ops : List Operation}
    (hcal : ∀ op ∈ ops, ∀ now ∈ op.now?, now.sub? retention ≠ none) {start : Session Memory}
    (hs : ¬ start.stores.IsFaulty) :
    ∃ after, (performAll Memory.documentStore retention ops).onSession start = (.ok (), after) ∧
      ∀ device, after.stores.document? (Key.history device) =
        documentAfter retention (start.stores.document? (Key.history device))
          (Operation.on device ops) := by
  induction ops generalizing start with
  | nil => exact ⟨start, rfl, fun device => rfl⟩
  | cons op rest ih =>
    have hop := perform_responds (b := .apart) (hcal op List.mem_cons_self)
    obtain ⟨next, hran, ev⟩ := Responds.onSession hop hs
    obtain ⟨after, hrest, hdocs⟩ := ih (fun o ho => hcal o (List.mem_cons_of_mem _ ho))
      (mt ev.isFaulty_iff.mp hs)
    refine ⟨after, (Action.onSession_bind_ok hran).trans hrest, fun device => ?_⟩
    have hon : Operation.on device (op :: rest) =
        Operation.on device [op] ++ Operation.on device rest := List.filter_append [op] rest
    rw [hdocs, document?_perform ev, hon, documentAfter, documentAfter, documentAfter,
      List.foldl_append]

/-- After calls in any order from empty histories, with horizons in any order, the history of a
device holds those readings that joined it and are, up to the microsecond, not older than the
horizon of any call on it from their own one on. They stand in the order in which they joined, as
they were written, and are read back. Calls on other devices do not matter. -/
theorem performAll_remaining {ops : List Operation}
    (hlegible : ∀ op ∈ ops, ∀ r ∈ op.reading?, r.IsLegible)
    (hcal : ∀ op ∈ ops, ∀ now ∈ op.now?, now.sub? retention ≠ none) {start : Session Memory}
    (hs : ¬ start.stores.IsFaulty)
    (hempty : ∀ device, start.stores.document? (Key.history device) = none) :
    ∃ after, (performAll Memory.documentStore retention ops).onSession start = (.ok (), after) ∧
      ∀ device,
        let readings := remaining retention (Operation.on device ops)
        let stored := after.stores.document? (Key.history device)
        stored = (if (Operation.on device ops).isEmpty then none
          else some (.array (readings.map Reading.toJson))) ∧
        Reading.ofRecords (recordsOf stored) = readings.map Reading.truncated := by
  obtain ⟨after, hran, hdocs⟩ := performAll_documentAfter hcal hs
  refine ⟨after, hran, fun device => ?_⟩
  have hon : ∀ op ∈ Operation.on device ops, ∀ r ∈ op.reading?, r.IsLegible :=
    fun op hop => hlegible op (List.mem_filter.mp hop).1
  have hstored := hdocs device
  rw [hempty] at hstored
  refine ⟨?_, ?_⟩
  · rw [hstored]
    exact documentAfter_none fun op hop r hr => (hon op hop r hr).year
  · rw [hstored]
    exact ofRecords_documentAfter_none hon

/-- A level of 3 at some seconds after the start of 1970. -/
def levelAt (seconds : Int) : Reading where
  device := "boiler"
  attr := "level"
  value := .number 3
  timestamp := (Instant.ofNanos? (seconds * 1000000000)).getD .earliest

/-- Calls of which the last one, made at an earlier time than the one before, removes nothing that
this one left. -/
def mixedCalls : List Operation := [
  .append "boiler" (levelAt 0),
  .ingest "boiler" (levelAt 240) (levelAt 240).timestamp,
  .append "pump" (levelAt (-3600)),
  .prune "boiler" (levelAt 330).timestamp,
  .append "boiler" (levelAt 10),
  .prune "boiler" (levelAt 300).timestamp]

/-- A reading that joins after a removal outlasts a later removal with an earlier horizon. -/
theorem performAll_remaining_of_mixedCalls :
    ∃ after, (performAll Memory.documentStore (.ofSeconds 300) mixedCalls).onSession
        { stores := Memory.empty, elapsed := 0, deadline := none } = (.ok (), after) ∧
      after.stores.document? (Key.history "boiler") = some (.array
        ((remaining (.ofSeconds 300) (Operation.on "boiler" mixedCalls)).map Reading.toJson)) ∧
      (remaining (.ofSeconds 300) (Operation.on "boiler" mixedCalls)).map Reading.timestamp =
        [(levelAt 240).timestamp, (levelAt 10).timestamp] ∧
      (remaining (.ofSeconds 300) (Operation.on "pump" mixedCalls)).map Reading.timestamp =
        [(levelAt (-3600)).timestamp] := by
  have hlegible : ∀ op ∈ mixedCalls, ∀ r ∈ op.reading?, r.IsLegible := by decide +kernel
  have hcal : ∀ op ∈ mixedCalls, ∀ now ∈ op.now?, now.sub? (.ofSeconds 300) ≠ none := by
    decide +kernel
  have sound : ¬ ({ stores := Memory.empty, elapsed := 0, deadline := none } :
      Session Memory).stores.IsFaulty := fun ⟨_, hn⟩ => hn rfl
  obtain ⟨after, hran, hdocs⟩ := performAll_remaining hlegible hcal sound fun _ => rfl
  exact ⟨after, hran, (hdocs "boiler").1, by decide +kernel, by decide +kernel⟩

end History

end TriggerWatch
