import TriggerWatch.History
import TriggerWatch.Proofs.Timestamps

/-!
# Readings as written

A reading that is written into a history is read back up to the microsecond of its time, and the
time that the history sees in the record is the one that is read back. This needs a year that is
written with four digits and, for a number, that it is finite: a document has no other numbers.

## Main definitions

- `Datum.IsFinite` — a text or a finite number
- `Reading.truncated` — the reading up to the microsecond
- `Reading.IsLegible` — a reading that is read back

## Main statements

- `History.timestamp?_toJson` — the time of a written reading
- `Reading.ofRecords_toJson` — written readings are read back
-/

namespace TriggerWatch

/-- A value is a text or a finite number. -/
def Datum.IsFinite : Datum → Prop
  | .number x => x.isFinite = true
  | .text _ => True

instance : DecidablePred Datum.IsFinite
  | .number x => inferInstanceAs (Decidable (x.isFinite = true))
  | .text _ => isTrue trivial

theorem Datum.ofTree?_toJson {v : Datum} (h : v.IsFinite) :
    ofTree? (Json.Tree.ofJson v.toJson) = some v := by
  cases v with
  | number x =>
    have hx : Json.ofFloat x = .number (.float x) := if_pos h
    rw [toJson, hx]
    rfl
  | text s => rfl

namespace Reading

/-- The reading with its time cut off at the microsecond. -/
def truncated (r : Reading) : Reading := { r with timestamp := r.timestamp.truncated }

/-- A reading keeps its value and its time in its written form. -/
structure IsLegible (r : Reading) : Prop where
  value : r.value.IsFinite
  year : r.timestamp.HasPlainYear

instance (r : Reading) : Decidable r.IsLegible :=
  decidable_of_iff (r.value.IsFinite ∧ r.timestamp.HasPlainYear)
    ⟨fun h => ⟨h.1, h.2⟩, fun h => ⟨h.value, h.year⟩⟩

/-- The members of a written reading in the order of their keys. -/
theorem toJson_eq (r : Reading) : r.toJson = .object [
    ("attribute", .string r.attr), ("device", .string r.device),
    ("timestamp", .string r.timestamp.format), ("value", r.value.toJson)] := by
  have hattr : "attribute" < "device" := by decide +kernel
  have htime : ¬ "timestamp" < "attribute" ∧ ¬ "timestamp" < "device" ∧ "timestamp" < "value" := by
    decide +kernel
  have hvalue : ¬ "value" < "attribute" ∧ ¬ "value" < "device" := by decide +kernel
  simp only [toJson, Json.ofPairs, Dict.ofList, Dict.insertAll, Dict.insert, Instant.toJson,
    List.foldl_cons, List.foldl_nil, String.reduceEq, if_false, hattr, htime, hvalue, if_true]

end Reading

/-- The time of a written reading is its time up to the microsecond. -/
theorem History.timestamp?_toJson {r : Reading} (h : r.timestamp.HasPlainYear) :
    timestamp? r.toJson = some r.timestamp.truncated := by
  rw [Reading.toJson_eq, timestamp?]
  simp only [Json.get?, Dict.get?_cons, String.reduceEq, if_false, if_true, Option.bind_some,
    Json.string?]
  exact Instant.ofText?_format h

namespace Reading

/-- A written reading is read back up to the microsecond. -/
theorem ofJson?_toJson {r : Reading} (h : r.IsLegible) : ofJson? r.toJson = some r.truncated := by
  have htime : Instant.ofTree? (.string r.timestamp.format) = some r.timestamp.truncated := by
    rw [Instant.ofTree?, Json.Tree.text?, Option.bind_some]
    exact Instant.ofText?_format h.year
  have hvalue := Datum.ofTree?_toJson h.value
  have hrecord : (Json.Tree.ofJson r.toJson).record? fieldNames = some {
      positional := false
      fields := [("attribute", .string r.attr), ("device", .string r.device),
        ("timestamp", .string r.timestamp.format),
        ("value", Json.Tree.ofJson r.value.toJson)] } := by
    rw [toJson_eq]
    simp [Json.Tree.ofJson, Json.Tree.ofMembers, Json.Tree.record?, Json.Tree.readableKeys?,
      fieldNames]
  rw [ofJson?, ofTree?, hrecord]
  simp only [Option.bind_eq_bind, Option.bind_some, Json.Record.required, Json.Record.withDefault,
    Json.Record.field?, Dict.get?_cons, String.reduceEq, if_false, if_true, hvalue, htime,
    Json.Tree.text?]
  rfl

/-- Written readings are read back, one after the other. -/
theorem ofRecords_toJson {rs : List Reading} (h : ∀ r ∈ rs, r.IsLegible) :
    ofRecords (rs.map toJson) = rs.map truncated := by
  induction rs with
  | nil => rfl
  | cons r rest ih =>
    have hrest := ih fun r' hr => h r' (List.mem_cons_of_mem _ hr)
    have hr := ofJson?_toJson (h r List.mem_cons_self)
    rw [ofRecords] at hrest ⊢
    rw [List.map_cons, List.filterMap_cons_some hr, hrest, List.map_cons]

end Reading

end TriggerWatch
