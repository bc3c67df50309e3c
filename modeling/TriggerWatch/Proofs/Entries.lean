import TriggerWatch.Proofs.Dictionaries
import TriggerWatch.Proofs.Timestamps
import TriggerWatch.Submission
import TriggerWatch.Trail

/-!
# Entries as written

An entry of a trail holds the whole submission in its written form. It is read back as it is, up to
the microsecond of its time: the written form of a submission has sorted keys and no value inside
that is more than a leaf.

## Main definitions

- `Json.IsStable` — a value that is the same after it was written and read

## Main statements

- `Submission.isStable_toJson` — the written form of a submission
- `Trail.Entry.ofJson?_toJson` — written entries are read back
-/

namespace TriggerWatch

namespace Json

def IsStable (v : Json) : Prop := (Tree.ofJson v).value? = some v

theorem isStable_string (text : String) : IsStable (.string text) := by
  rw [IsStable, Tree.ofJson, Tree.value?]

theorem isStable_number (n : Number) : IsStable (.number n) := by
  rw [IsStable, Tree.ofJson, Tree.value?]

theorem isStable_ofFloat (x : Float) : (ofFloat x).IsStable := by
  rw [ofFloat]
  split
  · exact isStable_number _
  · rw [IsStable, Tree.ofJson, Tree.value?]

theorem memberValues?_ofMembers {d : Dict Json} (h : ∀ p ∈ d, p.2.IsStable) :
    Tree.memberValues? (Tree.ofMembers d) = some d := by
  induction d with
  | nil => rw [Tree.ofMembers, Tree.memberValues?]
  | cons p rest ih =>
    have hp : (Tree.ofJson p.2).value? = some p.2 := h p List.mem_cons_self
    have hrest := ih fun q hq => h q (List.mem_cons_of_mem _ hq)
    rw [Tree.ofMembers, Tree.memberValues?, hp, hrest]
    rfl

/-- An object of stable values is stable, for its keys are sorted. -/
theorem isStable_ofPairs {pairs : List (String × Json)} (h : ∀ p ∈ pairs, p.2.IsStable) :
    (ofPairs pairs).IsStable := by
  have hmembers := memberValues?_ofMembers fun p hp => h p (Dict.mem_of_mem_ofList hp)
  rw [IsStable, ofPairs, Tree.ofJson, Tree.value?, hmembers, Option.map_some, ofPairs,
    Dict.ofList_of_isSorted (Dict.isSorted_ofList pairs)]

end Json

theorem Datum.isStable_toJson (v : Datum) : v.toJson.IsStable := by
  cases v with
  | number x => exact Json.isStable_ofFloat x
  | text s => exact Json.isStable_string s

namespace Submission

theorem isStable_optionalMember {α : Type} {name : String} {f : α → Json} {value : Option α}
    (h : ∀ a, (f a).IsStable) : ∀ p ∈ optionalMember name f value, p.2.IsStable := by
  cases value with
  | none => exact List.forall_mem_nil _
  | some a =>
    intro p hp
    rw [List.mem_singleton.mp hp]
    exact h a

theorem isStable_toJson (s : Submission) : s.toJson.IsStable := by
  have hreading : ∀ p ∈ [("device", Json.string s.device), ("attribute", .string s.attr),
      ("value", s.value.toJson)], p.2.IsStable := by
    simp [Json.isStable_string, Datum.isStable_toJson]
  have htrigger : ∀ p ∈ [("trigger_name", Json.string s.trigger),
      ("trigger_attribute", .string s.triggerAttr)], p.2.IsStable := by
    simp [Json.isStable_string]
  refine Json.isStable_ofPairs ?_
  simp only [List.forall_mem_append]
  refine ⟨⟨⟨⟨⟨⟨⟨⟨hreading, ?_⟩, htrigger⟩, ?_⟩, ?_⟩, ?_⟩, ?_⟩, ?_⟩, ?_⟩
  · exact isStable_optionalMember Json.isStable_string
  · exact isStable_optionalMember Datum.isStable_toJson
  · exact isStable_optionalMember Json.isStable_ofFloat
  · exact isStable_optionalMember Json.isStable_ofFloat
  · exact isStable_optionalMember Json.isStable_ofFloat
  · exact isStable_optionalMember fun n => Json.isStable_number (.int n)
  · exact isStable_optionalMember Json.isStable_string

end Submission

namespace Trail.Entry

/-- The members of a written entry in the order of their keys. -/
theorem toJson_eq (e : Entry) : e.toJson = .object [
    ("message", .string e.message), ("outcome", .string e.outcome),
    ("recorded_at", .string e.recordedAt.format), ("request", e.request)] := by
  have houtcome : "outcome" < "request" := by decide +kernel
  have hmessage : "message" < "outcome" := by decide +kernel
  have htime : ¬ "recorded_at" < "message" ∧ ¬ "recorded_at" < "outcome" ∧
      "recorded_at" < "request" := by decide +kernel
  simp only [toJson, Json.ofPairs, Dict.ofList, Dict.insertAll, Dict.insert, Instant.toJson,
    List.foldl_cons, List.foldl_nil, String.reduceEq, if_false, houtcome, hmessage, htime, if_true]

/-- A written entry is read back up to the microsecond. -/
theorem ofJson?_toJson {e : Entry} (hrequest : e.request.IsStable)
    (hyear : e.recordedAt.HasPlainYear) :
    ofJson? e.toJson = some { e with recordedAt := e.recordedAt.truncated } := by
  have hrequest : (Json.Tree.ofJson e.request).value? = some e.request := hrequest
  have htime : Instant.ofTree? (.string e.recordedAt.format) = some e.recordedAt.truncated := by
    rw [Instant.ofTree?, Json.Tree.text?, Option.bind_some]
    exact Instant.ofText?_format hyear
  have hrecord : (Json.Tree.ofJson e.toJson).record? fieldNames = some {
      positional := false
      fields := [("message", .string e.message), ("outcome", .string e.outcome),
        ("recorded_at", .string e.recordedAt.format), ("request", Json.Tree.ofJson e.request)] } := by
    rw [toJson_eq]
    simp [Json.Tree.ofJson, Json.Tree.ofMembers, Json.Tree.record?, Json.Tree.readableKeys?,
      fieldNames]
  rw [ofJson?, ofTree?, hrecord]
  simp only [Option.bind_eq_bind, Option.bind_some, Json.Record.required, Json.Record.field?,
    Dict.get?_cons, String.reduceEq, if_false, if_true, hrequest, htime, Json.Tree.text?]
  rfl

end Trail.Entry

end TriggerWatch
