import TriggerWatch.Proofs.Ingestion

/-!
# Two views of a record

The history looks at the timestamp of a record alone, and a rule looks at the reading as a whole. In
a record that is an object both find the same time, whatever else stands in the record. So no
reading that is left in a history is older than the horizon. A reading can also be read from a list
of its values. Such a record has no name for its time, so the history finds none in it, and it
leaves the history at the next pruning, however recent its reading is.

## Main definitions

- `Reading.IsListed` — a record lists the values of a reading without their names
- `Reading.listed` — the record that lists the values of a reading

## Main statements

- `Json.Tree.field?_of_object` — a field of a record is the member of that name
- `Reading.ofTree?_eq_some_iff` — a reading is read field by field
- `Reading.ofJson?_array_iff` — an array is read where it lists the values of a reading
- `History.timestamp?_of_ofJson?` — both views of an object show the same time
- `History.isRecent_iff_of_ofJson?` — which of the records that are read stay
- `History.ofRecords_keepRecent` — to prune and then read is to read and then pick by time
- `History.le_timestamp_of_mem_keepRecent` — what is left is not older than the horizon
- `History.prune_readings` — what a pruning leaves of the records that are read
-/

namespace TriggerWatch

theorem Dict.get?_mapValues {α β : Type} (f : α → β) (d : Dict α) (key : String) :
    (d.mapValues f).get? key = (d.get? key).map f := by
  induction d with
  | nil => rfl
  | cons p rest ih =>
    obtain ⟨k, v⟩ := p
    have hcons : mapValues f ((k, v) :: rest) = (k, f v) :: mapValues f rest := rfl
    rw [hcons, get?_cons, get?_cons, ih]
    split <;> rfl

/-- Bindings of other keys do not matter. -/
theorem Dict.get?_filter {α : Type} {p : String → Bool} {key : String} (h : p key = true)
    (d : Dict α) : get? (d.filter fun m => p m.1) key = d.get? key := by
  induction d with
  | nil => rfl
  | cons m rest ih =>
    obtain ⟨k, v⟩ := m
    by_cases hk : p k = true
    · rw [List.filter_cons_of_pos (by exact hk), get?_cons, get?_cons, ih]
    · have hne : k ≠ key := fun heq => hk (heq ▸ h)
      rw [List.filter_cons_of_neg (by exact hk), ih, get?_cons, if_neg hne]

namespace Json.Tree

theorem readableKeys?_ofMembers (members : Dict Json) :
    readableKeys? (ofMembers members) = some (members.mapValues ofJson) := by
  induction members with
  | nil => rw [ofMembers, readableKeys?]; rfl
  | cons m rest ih =>
    obtain ⟨k, v⟩ := m
    rw [ofMembers, readableKeys?, ih]
    rfl

/-- A field of a record that is an object is the member of that name. -/
theorem field?_of_object {names : List String} {members : Dict Json} {r : Record}
    (h : (ofJson (.object members)).record? names = some r) {name : String} (hn : name ∈ names) :
    r.field? name = (Dict.get? members name).map ofJson := by
  rw [ofJson, record?, readableKeys?_ofMembers, Option.bind_some] at h
  simp only at h
  split at h
  · cases h
    have hname : names.contains name = true := List.contains_iff_mem.mpr hn
    exact (Dict.get?_filter hname _).trans (Dict.get?_mapValues _ _ _)
  · cases h

theorem length_le_of_record?_array {names : List String} {items : List Tree} {r : Record}
    (h : (array items).record? names = some r) : items.length ≤ names.length := by
  rw [record?] at h
  split at h
  · assumption
  · cases h

theorem text?_ofJson_eq_some_iff {v : Json} {s : String} :
    (ofJson v).text? = some s ↔ v = .string s := by
  cases v <;> simp [ofJson, text?]

end Json.Tree

/-- A reading is read field by field. -/
theorem Reading.ofTree?_eq_some_iff {t : Json.Tree} {x : Reading} :
    ofTree? t = some x ↔ ∃ r, t.record? fieldNames = some r ∧
      r.withDefault "device" "" Json.Tree.text? = some x.device ∧
      r.required "attribute" Json.Tree.text? = some x.attr ∧
      r.required "value" Datum.ofTree? = some x.value ∧
      r.required "timestamp" Instant.ofTree? = some x.timestamp := by
  constructor
  · intro h
    obtain ⟨r, hr, h⟩ := Option.bind_eq_some_iff.mp h
    obtain ⟨device, hdevice, h⟩ := Option.bind_eq_some_iff.mp h
    obtain ⟨attr, hattr, h⟩ := Option.bind_eq_some_iff.mp h
    obtain ⟨value, hvalue, h⟩ := Option.bind_eq_some_iff.mp h
    obtain ⟨timestamp, htime, h⟩ := Option.bind_eq_some_iff.mp h
    cases h
    exact ⟨r, hr, hdevice, hattr, hvalue, htime⟩
  · rintro ⟨r, hr, hdevice, hattr, hvalue, htime⟩
    rw [ofTree?, hr]
    simp only [Option.bind_eq_bind, Option.bind_some, hdevice, hattr, hvalue, htime]
    rfl

/-! ### Records without names -/

theorem Instant.ofTree?_ofJson_eq_some_iff {v : Json} {t : Instant} :
    ofTree? (Json.Tree.ofJson v) = some t ↔ ∃ raw, v = .string raw ∧ ofText? raw = some t := by
  simp [ofTree?, Option.bind_eq_some_iff, Json.Tree.text?_ofJson_eq_some_iff]

namespace Reading

/-- A record lists the values of a reading in their order, without names for them. -/
def IsListed (x : Reading) (record : Json) : Prop :=
  ∃ value raw, record = .array [.string x.device, .string x.attr, value, .string raw] ∧
    Datum.ofTree? (Json.Tree.ofJson value) = some x.value ∧ Instant.ofText? raw = some x.timestamp

/-- The time comes last, so none of the values may be left out. -/
theorem exists_four_of_ofJson? {items : List Json} {x : Reading}
    (h : ofJson? (.array items) = some x) :
    ∃ device attr value time, items = [device, attr, value, time] := by
  obtain ⟨r, hr, -, -, -, htime⟩ := ofTree?_eq_some_iff.mp h
  match items with
  | [device, attr, value, time] => exact ⟨device, attr, value, time, rfl⟩
  | [] | [_] | [_, _] | [_, _, _] =>
    rw [Json.Tree.ofJson] at hr
    cases hr
    cases htime
  | _ :: _ :: _ :: _ :: _ :: _ =>
    rw [Json.Tree.ofJson] at hr
    have hlength := Json.Tree.length_le_of_record?_array hr
    simp only [Json.Tree.ofItems, List.length_cons, fieldNames, List.length_nil] at hlength
    omega

theorem ofJson?_four_iff {device attr value time : Json} {x : Reading} :
    ofJson? (.array [device, attr, value, time]) = some x ↔
      device = .string x.device ∧ attr = .string x.attr ∧
        Datum.ofTree? (Json.Tree.ofJson value) = some x.value ∧
        Instant.ofTree? (Json.Tree.ofJson time) = some x.timestamp := by
  have hrecord : (Json.Tree.ofJson (.array [device, attr, value, time])).record? fieldNames =
      some { positional := true, fields := [("device", Json.Tree.ofJson device),
        ("attribute", Json.Tree.ofJson attr), ("value", Json.Tree.ofJson value),
        ("timestamp", Json.Tree.ofJson time)] } := by
    simp only [Json.Tree.ofJson, Json.Tree.ofItems]
    rfl
  rw [ofJson?, ofTree?_eq_some_iff, hrecord]
  simp [Json.Record.required, Json.Record.withDefault, Json.Record.field?, Dict.get?_cons,
    Json.Tree.text?_ofJson_eq_some_iff]

/-- An array is read exactly where it lists the values of a reading. -/
theorem ofJson?_array_iff {items : List Json} {x : Reading} :
    ofJson? (.array items) = some x ↔ x.IsListed (.array items) := by
  constructor
  · intro h
    obtain ⟨device, attr, value, time, rfl⟩ := exists_four_of_ofJson? h
    obtain ⟨rfl, rfl, hvalue, htime⟩ := ofJson?_four_iff.mp h
    obtain ⟨raw, rfl, hraw⟩ := Instant.ofTree?_ofJson_eq_some_iff.mp htime
    exact ⟨value, raw, rfl, hvalue, hraw⟩
  · rintro ⟨value, raw, hitems, hvalue, hraw⟩
    rw [hitems, ofJson?_four_iff, Instant.ofTree?_ofJson_eq_some_iff]
    exact ⟨rfl, rfl, hvalue, raw, rfl, hraw⟩

theorem not_isListed_object {members : Dict Json} {x : Reading} :
    ¬ x.IsListed (.object members) := by
  rintro ⟨value, raw, hlist, -, -⟩
  cases hlist

/-- Of the records that are read, the arrays are the lists. -/
theorem not_isListed_iff_of_ofJson? {record : Json} {x : Reading} (h : ofJson? record = some x) :
    ¬ x.IsListed record ↔ record.items?.isNone = true := by
  cases record with
  | array items => exact iff_of_false (not_not_intro (ofJson?_array_iff.mp h)) nofun
  | object members => exact iff_of_true not_isListed_object rfl
  | null | bool | number | string => cases h

/-- The record that lists the values of a reading. -/
def listed (x : Reading) : Json :=
  .array [.string x.device, .string x.attr, x.value.toJson, x.timestamp.toJson]

/-- Listed values are read like the written form. -/
theorem isListed_listed {x : Reading} (h : x.IsLegible) : x.truncated.IsListed x.listed :=
  ⟨x.value.toJson, x.timestamp.format, rfl, Datum.ofTree?_toJson h.value,
    Instant.ofText?_format h.year⟩

theorem ofJson?_listed {x : Reading} (h : x.IsLegible) : ofJson? x.listed = some x.truncated :=
  ofJson?_array_iff.mpr (isListed_listed h)

end Reading

namespace History

variable {record : Json} {x : Reading} {horizon : Instant}

/-! ### The time of a record -/

theorem timestamp?_of_ofJson? {members : Dict Json} {x : Reading}
    (h : Reading.ofJson? (.object members) = some x) :
    timestamp? (.object members) = some x.timestamp := by
  obtain ⟨r, hr, -, -, -, htime⟩ := Reading.ofTree?_eq_some_iff.mp h
  have hname : "timestamp" ∈ Reading.fieldNames := by decide
  have hfield := Json.Tree.field?_of_object hr hname
  obtain ⟨field, hfound, hread⟩ := Option.bind_eq_some_iff.mp htime
  obtain ⟨value, hvalue, rfl⟩ := Option.map_eq_some_iff.mp (hfield.symm.trans hfound)
  -- a field of any other form than a text has no time in it
  cases value with
  | string raw =>
    rw [timestamp?, Json.get?, hvalue]
    exact hread
  | null | bool | number | array | object => rw [Json.Tree.ofJson] at hread; cases hread

theorem timestamp?_of_isListed (h : x.IsListed record) : timestamp? record = none := by
  obtain ⟨value, raw, rfl, -, -⟩ := h
  rfl

/-- The history finds the time of a reading in its record, except where that is a list. -/
theorem timestamp?_eq_iff_of_ofJson? (h : Reading.ofJson? record = some x) :
    timestamp? record = some x.timestamp ↔ ¬ x.IsListed record := by
  cases record with
  | object members => exact iff_of_true (timestamp?_of_ofJson? h) Reading.not_isListed_object
  | array items =>
    have hlisted := Reading.ofJson?_array_iff.mp h
    refine iff_of_false ?_ (not_not_intro hlisted)
    rw [timestamp?_of_isListed hlisted]
    exact nofun
  | null | bool | number | string => cases h

/-- A record that is read stays if its reading is not too old and it is not a list. -/
theorem isRecent_iff_of_ofJson? (h : Reading.ofJson? record = some x) :
    isRecent horizon record = true ↔ horizon ≤ x.timestamp ∧ ¬ x.IsListed record := by
  by_cases hlisted : x.IsListed record
  · rw [isRecent, timestamp?_of_isListed hlisted]
    simp [hlisted]
  · rw [isRecent, (timestamp?_eq_iff_of_ofJson? h).mpr hlisted]
    simp [hlisted]

/-! ### The readings that stay -/

/-- To prune and then read is to read what is not a list and then pick by time. -/
theorem ofRecords_keepRecent (horizon : Instant) (records : List Json) :
    Reading.ofRecords (keepRecent horizon records) =
      (Reading.ofRecords (records.filter fun record => record.items?.isNone)).filter fun x =>
        horizon ≤ x.timestamp := by
  rw [keepRecent, Reading.ofRecords, Reading.ofRecords, List.filterMap_filter,
    List.filterMap_filter, List.filter_filterMap]
  refine congrArg (List.filterMap · records) (funext fun record => ?_)
  cases hread : Reading.ofJson? record with
  | none => simp
  | some x =>
    have hstays : isRecent horizon record = true ↔ _ := isRecent_iff_of_ofJson? hread
    rw [Reading.not_isListed_iff_of_ofJson? hread] at hstays
    by_cases hlist : record.items?.isNone = true
    · simp [hstays, hlist, Option.filter]
    · simp [hstays, hlist]

/-- A reading that is left in a history is not older than the horizon. -/
theorem le_timestamp_of_mem_keepRecent {horizon : Instant} {records : List Json} {x : Reading}
    (h : x ∈ Reading.ofRecords (keepRecent horizon records)) : horizon ≤ x.timestamp := by
  rw [ofRecords_keepRecent] at h
  exact of_decide_eq_true (List.mem_filter.mp h).2

/-! ### The calls -/

variable {σ : Type} {sound : σ → Prop} {docs : Documents σ} {document? : σ → String → Option Json}
  {retention : Span} {now : Instant}

/-- The history finds the time of a reading in its record, unless that is a list, in which it finds
none. So a pruning keeps a record that is read exactly if its reading is not too old and it is not a
list, and the readings that are left are those from other records than lists which are not too old.
Where no call fails a pruning comes to its end. -/
theorem prune_readings (hdocs : docs.IsAtomic sound document?)
    (hnow : now.sub? retention = some horizon) (device : String)
    (hread : Reading.ofJson? record = some x) :
    (timestamp? record = some x.timestamp ↔ ¬ x.IsListed record) ∧
    (timestamp? record = none ↔ x.IsListed record) ∧
    (∀ s, sound s.stores →
      ∃ kept t, (prune docs retention device now).onSession s = (.ok kept, t)) ∧
    ∀ {s t : Session σ} {kept : List Json},
      (prune docs retention device now).onSession s = (.ok kept, t) →
        let records := recordsIn device (document? s.stores)
        document? t.stores = withRecords device kept (document? s.stores) ∧
        (record ∈ kept ↔ record ∈ records ∧ horizon ≤ x.timestamp ∧ ¬ x.IsListed record) ∧
        Reading.ofRecords kept =
          (Reading.ofRecords (records.filter fun record => record.items?.isNone)).filter fun y =>
            horizon ≤ y.timestamp := by
  have hprune := performs_prune hdocs device hnow
  have htime := timestamp?_eq_iff_of_ofJson? hread
  refine ⟨htime, ⟨?_, timestamp?_of_isListed⟩, ?_, ?_⟩
  · intro hnone
    by_contra hnamed
    rw [htime.mpr hnamed] at hnone
    cases hnone
  · intro s hs
    obtain ⟨kept, t, hran, -⟩ := hprune.succeeds s hs
    exact ⟨kept, t, hran⟩
  · intro s t kept hran records
    obtain ⟨hkept, hleft⟩ := Prod.mk.inj (hprune.ok s hran)
    subst hkept
    refine ⟨hleft.symm, ?_, ofRecords_keepRecent horizon records⟩
    rw [keepRecent, List.mem_filter, isRecent_iff_of_ofJson? hread]

/-- A history of an old reading and of a recent one in both forms. -/
def mixedHistory : Session Memory where
  stores := { Memory.empty with
    documents := [(Key.history "boiler", .array
      [(levelAt 0).toJson, (levelAt 240).listed, (levelAt 240).toJson])] }
  elapsed := 0
  deadline := none

/-- Of the recent reading one form stays. -/
theorem prune_readings_of_mixedHistory :
    ∃ kept t, (prune Memory.documentStore (.ofSeconds 300) "boiler"
        (levelAt 330).timestamp).onSession mixedHistory = (.ok kept, t) ∧
      (levelAt 240).toJson ∈ kept ∧
      (Reading.ofRecords kept).map Reading.timestamp = [(levelAt 240).timestamp] := by
  have hnow : (levelAt 330).timestamp.sub? (.ofSeconds 300) = some (levelAt 30).timestamp := by
    decide +kernel
  have hlegible : ∀ r ∈ [levelAt 0, levelAt 240], r.IsLegible := by decide +kernel
  have hread := Reading.ofJson?_toJson (hlegible (levelAt 240) (by simp))
  have sound : ¬ mixedHistory.stores.IsFaulty := fun ⟨_, hn⟩ => hn rfl
  obtain ⟨-, -, hsucceeds, hleft⟩ := prune_readings Memory.isAtomic_documentStore hnow "boiler" hread
  obtain ⟨kept, t, hran⟩ := hsucceeds mixedHistory sound
  obtain ⟨-, hmem, hreadings⟩ := hleft hran
  have hnamed : (recordsIn "boiler" mixedHistory.stores.document?).filter
      (fun record => record.items?.isNone) = [levelAt 0, levelAt 240].map Reading.toJson := rfl
  refine ⟨kept, t, hran, hmem.mpr ⟨?_, by decide +kernel, ?_⟩, ?_⟩
  · exact List.mem_cons_of_mem _ (List.mem_cons_of_mem _ List.mem_cons_self)
  · rw [Reading.toJson_eq]
    exact Reading.not_isListed_object
  · rw [hreadings, hnamed, Reading.ofRecords_toJson hlegible]
    decide +kernel

/-- The other form is read as well and is gone, although the reading is recent. -/
theorem not_mem_kept_of_mixedHistory :
    ∃ x kept t, (levelAt 240).listed ∈ recordsIn "boiler" mixedHistory.stores.document? ∧
      Reading.ofJson? (levelAt 240).listed = some x ∧
      (levelAt 330).timestamp.sub? (.ofSeconds 300) = some (levelAt 30).timestamp ∧
      (levelAt 30).timestamp ≤ x.timestamp ∧
      timestamp? (levelAt 240).listed = none ∧
      (prune Memory.documentStore (.ofSeconds 300) "boiler"
        (levelAt 330).timestamp).onSession mixedHistory = (.ok kept, t) ∧
      (levelAt 240).listed ∉ kept := by
  have hnow : (levelAt 330).timestamp.sub? (.ofSeconds 300) = some (levelAt 30).timestamp := by
    decide +kernel
  have hlegible : (levelAt 240).IsLegible := by decide +kernel
  have hlisted := Reading.isListed_listed hlegible
  have hread := Reading.ofJson?_listed hlegible
  have hprune := performs_prune Memory.isAtomic_documentStore "boiler" hnow
  have sound : ¬ mixedHistory.stores.IsFaulty := fun ⟨_, hn⟩ => hn rfl
  obtain ⟨kept, t, hran, -⟩ := hprune.succeeds mixedHistory sound
  obtain ⟨hkept, -⟩ := Prod.mk.inj (hprune.ok mixedHistory hran)
  refine ⟨_, kept, t, List.mem_cons_of_mem _ List.mem_cons_self, hread, hnow, by decide +kernel,
    timestamp?_of_isListed hlisted, hran, ?_⟩
  intro hmem
  rw [← hkept, keepRecent, List.mem_filter, isRecent_iff_of_ofJson? hread] at hmem
  exact hmem.2.2 hlisted

end History

end TriggerWatch
