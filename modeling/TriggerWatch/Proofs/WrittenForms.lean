import TriggerWatch.Evaluation
import TriggerWatch.Proofs.Entries
import TriggerWatch.Proofs.LongYears
import TriggerWatch.Proofs.Messages
import TriggerWatch.Proofs.Records

/-!
# Written forms are stable

Every record type has two written forms that are read, an object and an array, and one that is
written, an object. What is read from either of them is read back from what is written for it, up to
the microsecond of its times, and is then written in the same way again. The fields are looked at
one by one: a written object is taken apart into the members that made it.

## Main definitions

- `Json.Record.Has` — the fields of a record are those of a list of members
- `Json.IsStableForm` — what is read is read back from its written form

## Main statements

- `Json.isStable_of_value?` — the value of a tree is stable
- `Json.Tree.exists_record?` — a written object is taken apart into its members
- `Condition.ofTree?_toJson`, `Outcome.ofTree?_toJson`, `Submission.ofTree?_toJson` — what is
  written of finite numbers is read back
- `Json.snapshot_entryOf` — the submission in an entry is the one that was evaluated
- `Json.forms_stable` — the written forms of all types are stable
-/

namespace TriggerWatch

namespace Json

/-! ### Values of trees -/

theorem itemValues?_ofItems {vs : List Json} (h : ∀ v ∈ vs, v.IsStable) :
    Tree.itemValues? (Tree.ofItems vs) = some vs := by
  induction vs with
  | nil => rw [Tree.ofItems, Tree.itemValues?]
  | cons v rest ih =>
    have hv : (Tree.ofJson v).value? = some v := h v List.mem_cons_self
    have hrest := ih fun w hw => h w (List.mem_cons_of_mem _ hw)
    rw [Tree.ofItems, Tree.itemValues?, hv, hrest]
    rfl

theorem isStable_array {vs : List Json} (h : ∀ v ∈ vs, v.IsStable) : (array vs).IsStable := by
  rw [IsStable, Tree.ofJson, Tree.value?, itemValues?_ofItems h]
  rfl

mutual

/-- The value of a tree is stable: its objects are sorted, whatever the order in the tree is. -/
theorem isStable_of_value? : ∀ {t : Tree} {v : Json}, t.value? = some v → v.IsStable
  | .null, v, h => by
    cases h
    rw [IsStable, Tree.ofJson, Tree.value?]
  | .bool b, v, h => by
    cases h
    rw [IsStable, Tree.ofJson, Tree.value?]
  | .number n, v, h => by
    cases h
    exact isStable_number n
  | .string s, v, h => by
    cases h
    exact isStable_string s
  | .array items, v, h => by
    rw [Tree.value?] at h
    obtain ⟨vs, hvs, rfl⟩ := Option.map_eq_some_iff.mp h
    exact isStable_array (isStable_of_itemValues? hvs)
  | .object members, v, h => by
    rw [Tree.value?] at h
    obtain ⟨pairs, hpairs, rfl⟩ := Option.map_eq_some_iff.mp h
    exact isStable_ofPairs (isStable_of_memberValues? hpairs)

theorem isStable_of_itemValues? : ∀ {ts : List Tree} {vs : List Json},
    Tree.itemValues? ts = some vs → ∀ v ∈ vs, v.IsStable
  | [], vs, h => by
    cases h
    exact List.forall_mem_nil _
  | t :: rest, vs, h => by
    rw [Tree.itemValues?] at h
    obtain ⟨v, hv, h⟩ := Option.bind_eq_some_iff.mp h
    obtain ⟨others, hothers, rfl⟩ := Option.map_eq_some_iff.mp h
    exact List.forall_mem_cons.mpr ⟨isStable_of_value? hv, isStable_of_itemValues? hothers⟩

theorem isStable_of_memberValues? : ∀ {ms : List (Option String × Tree)}
    {pairs : List (String × Json)}, Tree.memberValues? ms = some pairs → ∀ p ∈ pairs, p.2.IsStable
  | [], pairs, h => by
    cases h
    exact List.forall_mem_nil _
  | (none, _) :: _, pairs, h => by
    rw [Tree.memberValues?] at h
    cases h
  | (some k, t) :: rest, pairs, h => by
    rw [Tree.memberValues?, Option.bind_some] at h
    obtain ⟨v, hv, h⟩ := Option.bind_eq_some_iff.mp h
    obtain ⟨others, hothers, rfl⟩ := Option.map_eq_some_iff.mp h
    exact List.forall_mem_cons.mpr ⟨isStable_of_value? hv, isStable_of_memberValues? hothers⟩

end

end Json

/-! ### Fields of written objects -/

namespace Json

/-- The fields of a record that is written as an object are those of a list of members. -/
structure Record.Has (r : Record) (names : List String) (pairs : List (String × Json)) : Prop where
  isObject : r.positional = false
  field? : ∀ name ∈ names, r.field? name = (Dict.get? pairs.reverse name).map Tree.ofJson

/-- A written object is taken apart into its members. -/
theorem Tree.exists_record? (names : List String) (pairs : List (String × Json)) :
    ∃ r, (ofJson (ofPairs pairs)).record? names = some r ∧ r.Has names pairs := by
  have hsorted : (Dict.mapValues ofJson (Dict.ofList pairs)).keys = (Dict.ofList pairs).keys := by
    rw [Dict.keys, Dict.mapValues, List.map_map]
    rfl
  have hnodup : ((Dict.mapValues ofJson (Dict.ofList pairs)).filter fun m =>
      names.contains m.1).map Prod.fst |>.Nodup := by
    have hkeys := Dict.nodup_keys (Dict.isSorted_ofList pairs)
    rw [← hsorted] at hkeys
    exact hkeys.sublist (List.filter_sublist.map Prod.fst)
  have hrecord : (ofJson (ofPairs pairs)).record? names = some {
      positional := false
      fields := (Dict.mapValues ofJson (Dict.ofList pairs)).filter fun m =>
        names.contains m.1 } := by
    rw [ofPairs, ofJson, record?, readableKeys?_ofMembers, Option.bind_some]
    exact if_pos hnodup
  refine ⟨_, hrecord, rfl, ?_⟩
  intro name hname
  rw [← Dict.get?_ofList]
  exact field?_of_object hrecord hname

namespace Record

variable {α : Type} {r : Record} {names : List String} {pairs : List (String × Json)}
variable {name : String} {read? : Tree → Option α} {f : α → Json}

theorem Has.required (h : r.Has names pairs) (hname : name ∈ names) {v : Json} {a : α}
    (hv : Dict.get? pairs.reverse name = some v) (hread : read? (Tree.ofJson v) = some a) :
    r.required name read? = some a := by
  rw [Record.required, h.field? name hname, hv]
  exact hread

theorem orNull?_ofJson {v : Json} {a : α} (hnull : read? .null = none)
    (hread : read? (Tree.ofJson v) = some a) : orNull? read? (Tree.ofJson v) = some (some a) := by
  cases ht : Tree.ofJson v with
  | null =>
    rw [ht, hnull] at hread
    cases hread
  | bool | number | string | unreadable | array | object =>
    rw [ht] at hread
    rw [orNull?, hread]
    · rfl
    · intro hn
      cases hn

/-- A field that is `null` where there is no value. -/
theorem Has.nullable (h : r.Has names pairs) (hname : name ∈ names) {value : Option α}
    (hv : Dict.get? pairs.reverse name = some (ofOption f value)) (hnull : read? .null = none)
    (hread : ∀ a ∈ value, read? (Tree.ofJson (f a)) = some a) :
    r.nullable name read? = some value := by
  rw [Record.nullable, h.field? name hname, hv, Option.map_some]
  cases value with
  | none => rw [ofOption, Tree.ofJson]; rfl
  | some a => exact orNull?_ofJson hnull (hread a rfl)

/-- A field that is left out where there is no value. -/
theorem Has.optional (h : r.Has names pairs) (hname : name ∈ names) {value : Option α}
    (hv : Dict.get? pairs.reverse name = value.map f) (hnull : read? .null = none)
    (hread : ∀ a ∈ value, read? (Tree.ofJson (f a)) = some a) :
    Submission.optionalField r name read? = some value := by
  rw [Submission.optionalField, Record.withDefault, h.field? name hname, hv]
  cases value with
  | none => rfl
  | some a => exact orNull?_ofJson hnull (hread a rfl)

/-! ### What can be read from a field -/

variable {P : α → Prop} {value : Option α}

theorem of_required (hfields : ∀ m ∈ r.fields, m.2.HasFiniteNumbers)
    (hread : ∀ {t : Tree}, t.HasFiniteNumbers → ∀ {a : α}, read? t = some a → P a) {a : α}
    (h : r.required name read? = some a) : P a := by
  obtain ⟨t, hfield, ht⟩ := Option.bind_eq_some_iff.mp h
  exact hread (hfields _ (Dict.mem_of_get? hfield)) ht

theorem of_orNull? {t : Tree} (hread : ∀ {a : α}, read? t = some a → P a)
    (h : orNull? read? t = some value) : ∀ a ∈ value, P a := by
  rw [orNull?.eq_def] at h
  split at h
  · cases h
    intro a ha
    cases ha
  · obtain ⟨a, ht, rfl⟩ := Option.map_eq_some_iff.mp h
    intro b hb
    cases hb
    exact hread ht

theorem of_nullable (hfields : ∀ m ∈ r.fields, m.2.HasFiniteNumbers)
    (hread : ∀ {t : Tree}, t.HasFiniteNumbers → ∀ {a : α}, read? t = some a → P a)
    (h : r.nullable name read? = some value) : ∀ a ∈ value, P a := by
  cases hfield : r.field? name with
  | some t =>
    simp only [nullable, hfield] at h
    exact of_orNull? (hread (hfields _ (Dict.mem_of_get? hfield))) h
  | none =>
    simp only [nullable, hfield] at h
    split at h
    · cases h
    · cases h
      intro a ha
      cases ha

theorem of_optional (hfields : ∀ m ∈ r.fields, m.2.HasFiniteNumbers)
    (hread : ∀ {t : Tree}, t.HasFiniteNumbers → ∀ {a : α}, read? t = some a → P a)
    (h : Submission.optionalField r name read? = some value) : ∀ a ∈ value, P a := by
  rw [Submission.optionalField, withDefault] at h
  cases hfield : r.field? name with
  | some t =>
    rw [hfield] at h
    exact of_orNull? (hread (hfields _ (Dict.mem_of_get? hfield))) h
  | none =>
    rw [hfield] at h
    cases h
    intro a ha
    cases ha

end Record

/-! ### Leaves -/

theorem Tree.isFinite_float? {t : Tree} (ht : t.HasFiniteNumbers) {x : Float}
    (h : t.float? = some x) : x.isFinite = true := by
  cases ht with
  | number hn =>
    cases h
    exact hn
  | null | bool | string | unreadable | array | object => cases h

theorem Tree.float?_ofFloat {x : Float} (h : x.isFinite = true) :
    (Tree.ofJson (ofFloat x)).float? = some x := by
  rw [ofFloat, if_pos h, ofJson]
  rfl

theorem Tree.text?_ofJson (text : String) : (Tree.ofJson (.string text)).text? = some text :=
  text?_ofJson_eq_some_iff.mpr rfl

theorem Tree.mem_of_integer? {low high n : Int} {t : Tree} (h : t.integer? low high = some n) :
    low ≤ n ∧ n ≤ high := by
  rw [integer?.eq_def] at h
  split at h
  · split at h
    · next hn =>
      cases h
      exact hn
    · cases h
  · cases h

theorem Tree.integer?_ofJson {low high n : Int} (h : low ≤ n ∧ n ≤ high) :
    (Tree.ofJson (.number (.int n))).integer? low high = some n := by
  rw [ofJson]
  exact if_pos h

end Json

/-! ### Conditions -/

namespace Condition

/-- A condition has only finite numbers. -/
structure IsLegible (c : Condition) : Prop where
  equals : ∀ v ∈ c.equals, v.IsFinite
  above : ∀ x ∈ c.above, x.isFinite = true
  below : ∀ x ∈ c.below, x.isFinite = true

theorem isLegible_of_ofTree? {t : Json.Tree} (ht : t.HasFiniteNumbers) {c : Condition}
    (h : ofTree? t = some c) : c.IsLegible := by
  obtain ⟨r, hr, h⟩ := Option.bind_eq_some_iff.mp h
  obtain ⟨equals, hequals, h⟩ := Option.bind_eq_some_iff.mp h
  obtain ⟨above, habove, h⟩ := Option.bind_eq_some_iff.mp h
  obtain ⟨below, hbelow, h⟩ := Option.bind_eq_some_iff.mp h
  cases h
  have hfields := ht.fields hr
  exact {
    equals := Json.Record.of_nullable hfields Datum.isFinite_ofTree? hequals
    above := Json.Record.of_nullable hfields Json.Tree.isFinite_float? habove
    below := Json.Record.of_nullable hfields Json.Tree.isFinite_float? hbelow }

theorem ofTree?_toJson {c : Condition} (h : c.IsLegible) :
    ofTree? (Json.Tree.ofJson c.toJson) = some c := by
  obtain ⟨r, hr, hhas⟩ := Json.Tree.exists_record? fieldNames [
    ("equals", Json.ofOption Datum.toJson c.equals),
    ("above", Json.ofOption Json.ofFloat c.above),
    ("below", Json.ofOption Json.ofFloat c.below)]
  have hequals : r.nullable "equals" Datum.ofTree? = some c.equals :=
    hhas.nullable (by decide) (by simp [Dict.get?_cons]) rfl
      fun v hv => Datum.ofTree?_toJson (h.equals v hv)
  have habove : r.nullable "above" Json.Tree.float? = some c.above :=
    hhas.nullable (by decide) (by simp [Dict.get?_cons]) rfl
      fun x hx => Json.Tree.float?_ofFloat (h.above x hx)
  have hbelow : r.nullable "below" Json.Tree.float? = some c.below :=
    hhas.nullable (by decide) (by simp [Dict.get?_cons]) rfl
      fun x hx => Json.Tree.float?_ofFloat (h.below x hx)
  rw [ofTree?, toJson, hr]
  simp only [Option.bind_eq_bind, Option.bind_some, hequals, habove, hbelow]
  rfl

end Condition

/-! ### Outcomes -/

namespace Outcome

theorem Kind.ofTree?_ofJson (kind : Kind) :
    Kind.ofTree? (Json.Tree.ofJson (.string kind.name)) = some kind := by
  rw [Json.Tree.ofJson]
  cases kind <;> decide +kernel

theorem le_of_count? {t : Json.Tree} {n : Nat} (h : count? t = some n) : n ≤ 0xffffffff := by
  obtain ⟨k, hk, rfl⟩ := Option.map_eq_some_iff.mp h
  have := Json.Tree.mem_of_integer? hk
  omega

theorem count?_ofJson {n : Nat} (h : n ≤ 0xffffffff) :
    count? (Json.Tree.ofJson (.number (.int n))) = some n := by
  rw [count?, Json.Tree.integer?_ofJson ⟨by omega, by omega⟩]
  rfl

/-- An outcome has a finite certainty and counts of 32 bits. -/
structure IsLegible (o : Outcome) : Prop where
  certainty : ∀ x ∈ o.certainty, x.isFinite = true
  tested : o.tested ≤ 0xffffffff
  satisfied : o.satisfied ≤ 0xffffffff

theorem isLegible_of_ofTree? {t : Json.Tree} (ht : t.HasFiniteNumbers) {o : Outcome}
    (h : ofTree? t = some o) : o.IsLegible := by
  obtain ⟨r, hr, h⟩ := Option.bind_eq_some_iff.mp h
  obtain ⟨kind, -, h⟩ := Option.bind_eq_some_iff.mp h
  obtain ⟨message, -, h⟩ := Option.bind_eq_some_iff.mp h
  obtain ⟨certainty, hcertainty, h⟩ := Option.bind_eq_some_iff.mp h
  obtain ⟨tested, htested, h⟩ := Option.bind_eq_some_iff.mp h
  obtain ⟨satisfied, hsatisfied, h⟩ := Option.bind_eq_some_iff.mp h
  cases h
  have hfields := ht.fields hr
  exact {
    certainty := Json.Record.of_nullable hfields Json.Tree.isFinite_float? hcertainty
    tested := Json.Record.of_required hfields (fun _ => le_of_count?) htested
    satisfied := Json.Record.of_required hfields (fun _ => le_of_count?) hsatisfied }

theorem ofTree?_toJson {o : Outcome} (h : o.IsLegible) :
    ofTree? (Json.Tree.ofJson o.toJson) = some o := by
  obtain ⟨r, hr, hhas⟩ := Json.Tree.exists_record? fieldNames [
    ("kind", .string o.kind.name),
    ("message", .string o.message),
    ("certainty", Json.ofOption Json.ofFloat o.certainty),
    ("events_tested", .number (.int o.tested)),
    ("events_satisfied", .number (.int o.satisfied))]
  have hkind : r.required "kind" Kind.ofTree? = some o.kind :=
    hhas.required (by decide) (by simp [Dict.get?_cons]) (Kind.ofTree?_ofJson o.kind)
  have hmessage : r.required "message" Json.Tree.text? = some o.message :=
    hhas.required (by decide) (by simp [Dict.get?_cons]) (Json.Tree.text?_ofJson o.message)
  have hcertainty : r.nullable "certainty" Json.Tree.float? = some o.certainty :=
    hhas.nullable (by decide) (by simp [Dict.get?_cons]) rfl
      fun x hx => Json.Tree.float?_ofFloat (h.certainty x hx)
  have htested : r.required "events_tested" count? = some o.tested :=
    hhas.required (by decide) (by simp [Dict.get?_cons]) (count?_ofJson h.tested)
  have hsatisfied : r.required "events_satisfied" count? = some o.satisfied :=
    hhas.required (by decide) (by simp [Dict.get?_cons]) (count?_ofJson h.satisfied)
  rw [ofTree?, toJson, hr]
  simp only [Option.bind_eq_bind, Option.bind_some, hkind, hmessage, hcertainty, htested,
    hsatisfied]
  rfl

end Outcome

/-! ### Submissions -/

namespace Submission

/-- A submission has only finite numbers and a period of 64 bits. -/
structure IsLegible (s : Submission) : Prop where
  value : s.value.IsFinite
  condition : s.condition.IsLegible
  certainty : ∀ x ∈ s.certainty, x.isFinite = true
  period : ∀ n ∈ s.period, -0x8000000000000000 ≤ n ∧ n ≤ 0x7fffffffffffffff

theorem isLegible_of_ofTree? {t : Json.Tree} (ht : t.HasFiniteNumbers) {s : Submission}
    (h : ofTree? t = some s) : s.IsLegible := by
  obtain ⟨r, hr, hreads⟩ := ofTree?_eq_some_iff.mp h
  have hfields := ht.fields hr
  exact {
    value := Json.Record.of_required hfields Datum.isFinite_ofTree? hreads.value
    condition := {
      equals := Json.Record.of_optional hfields Datum.isFinite_ofTree? hreads.equals
      above := Json.Record.of_optional hfields Json.Tree.isFinite_float? hreads.above
      below := Json.Record.of_optional hfields Json.Tree.isFinite_float? hreads.below }
    certainty := Json.Record.of_optional hfields Json.Tree.isFinite_float? hreads.certainty
    period := Json.Record.of_optional hfields (fun _ => Json.Tree.mem_of_integer?) hreads.period }

@[simp] theorem get?_reverse_optionalMember {α : Type} (name : String) (f : α → Json)
    (value : Option α) (key : String) :
    Dict.get? (optionalMember name f value).reverse key =
      if name = key then value.map f else none := by
  cases value with
  | none => exact (ite_self _).symm
  | some a => rfl

theorem ofTree?_toJson {s : Submission} (h : s.IsLegible) :
    ofTree? (Json.Tree.ofJson s.toJson) = some s := by
  obtain ⟨r, hr, hhas⟩ := Json.Tree.exists_record? fieldNames (
    [("device", .string s.device), ("attribute", .string s.attr), ("value", s.value.toJson)] ++
    optionalMember "timestamp" .string s.timestamp ++
    [("trigger_name", .string s.trigger), ("trigger_attribute", .string s.triggerAttr)] ++
    optionalMember "trigger_value" Datum.toJson s.equals ++
    optionalMember "trigger_upper_limit" Json.ofFloat s.above ++
    optionalMember "trigger_lower_limit" Json.ofFloat s.below ++
    optionalMember "trigger_certainty" Json.ofFloat s.certainty ++
    optionalMember "trigger_period" (fun n => .number (.int n)) s.period ++
    optionalMember "value_map_beacon_to_class" .string s.beacon)
  have hdevice : r.required "device" Json.Tree.text? = some s.device :=
    hhas.required (by decide) (by simp [Dict.get?_cons]) (Json.Tree.text?_ofJson s.device)
  have hattr : r.required "attribute" Json.Tree.text? = some s.attr :=
    hhas.required (by decide) (by simp [Dict.get?_cons]) (Json.Tree.text?_ofJson s.attr)
  have hvalue : r.required "value" Datum.ofTree? = some s.value :=
    hhas.required (by decide) (by simp [Dict.get?_cons]) (Datum.ofTree?_toJson h.value)
  have htimestamp : optionalField r "timestamp" Json.Tree.text? = some s.timestamp :=
    hhas.optional (by decide) (by simp [Dict.get?_cons]) rfl fun x _ => Json.Tree.text?_ofJson x
  have htrigger : r.required "trigger_name" Json.Tree.text? = some s.trigger :=
    hhas.required (by decide) (by simp [Dict.get?_cons]) (Json.Tree.text?_ofJson s.trigger)
  have htriggerAttr : r.required "trigger_attribute" Json.Tree.text? = some s.triggerAttr :=
    hhas.required (by decide) (by simp [Dict.get?_cons]) (Json.Tree.text?_ofJson s.triggerAttr)
  have hequals : optionalField r "trigger_value" Datum.ofTree? = some s.equals :=
    hhas.optional (by decide) (by simp [Dict.get?_cons]) rfl
      fun v hv => Datum.ofTree?_toJson (h.condition.equals v hv)
  have habove : optionalField r "trigger_upper_limit" Json.Tree.float? = some s.above :=
    hhas.optional (by decide) (by simp [Dict.get?_cons]) rfl
      fun x hx => Json.Tree.float?_ofFloat (h.condition.above x hx)
  have hbelow : optionalField r "trigger_lower_limit" Json.Tree.float? = some s.below :=
    hhas.optional (by decide) (by simp [Dict.get?_cons]) rfl
      fun x hx => Json.Tree.float?_ofFloat (h.condition.below x hx)
  have hcertainty : optionalField r "trigger_certainty" Json.Tree.float? = some s.certainty :=
    hhas.optional (by decide) (by simp [Dict.get?_cons]) rfl
      fun x hx => Json.Tree.float?_ofFloat (h.certainty x hx)
  have hperiod : optionalField r "trigger_period" signed64? = some s.period :=
    hhas.optional (by decide) (by simp [Dict.get?_cons]) rfl
      fun n hn => Json.Tree.integer?_ofJson (h.period n hn)
  have hbeacon : optionalField r "value_map_beacon_to_class" Json.Tree.text? = some s.beacon :=
    hhas.optional (by decide) (by simp [Dict.get?_cons]) rfl fun x _ => Json.Tree.text?_ofJson x
  exact ofTree?_eq_some_iff.mpr ⟨r, hr, hdevice, hattr, hvalue, htimestamp, htrigger, htriggerAttr,
    hequals, habove, hbelow, hcertainty, hperiod, hbeacon⟩

end Submission

/-! ### Readings and entries -/

theorem Reading.isFinite_of_ofTree? {t : Json.Tree} (ht : t.HasFiniteNumbers) {x : Reading}
    (h : ofTree? t = some x) : x.value.IsFinite := by
  obtain ⟨r, hr, -, -, hvalue, -⟩ := ofTree?_eq_some_iff.mp h
  exact Json.Record.of_required (ht.fields hr) Datum.isFinite_ofTree? hvalue

namespace Trail.Entry

/-- The entry with its time cut off at the microsecond. -/
def truncated (e : Entry) : Entry := { e with recordedAt := e.recordedAt.truncated }

theorem isStable_of_ofTree? {t : Json.Tree} {e : Entry} (h : ofTree? t = some e) :
    e.request.IsStable := by
  obtain ⟨r, -, h⟩ := Option.bind_eq_some_iff.mp h
  obtain ⟨request, hrequest, h⟩ := Option.bind_eq_some_iff.mp h
  obtain ⟨outcome, -, h⟩ := Option.bind_eq_some_iff.mp h
  obtain ⟨message, -, h⟩ := Option.bind_eq_some_iff.mp h
  obtain ⟨recordedAt, -, h⟩ := Option.bind_eq_some_iff.mp h
  cases h
  obtain ⟨field, -, hread⟩ := Option.bind_eq_some_iff.mp hrequest
  exact Json.isStable_of_value? hread

theorem toJson_truncated (e : Entry) : e.truncated.toJson = e.toJson := by
  rw [toJson_eq, toJson_eq, truncated, Instant.format_truncated]

end Trail.Entry

theorem Reading.toJson_truncated (x : Reading) : x.truncated.toJson = x.toJson := by
  rw [toJson_eq, toJson_eq, truncated, Instant.format_truncated]

/-! ### Stable forms -/

namespace Json

/-- What is read from a tree, if it is plain, is read back from its written form with something cut
off, and what is left is written in the same way. -/
structure IsStableForm {α : Type} (read? : Tree → Option α) (write : α → Json) (isPlain : α → Prop)
    (cut : α → α) : Prop where
  readBack : ∀ t x, t.HasFiniteNumbers → read? t = some x → isPlain x →
    read? (Tree.ofJson (write x)) = some (cut x)
  rewritten : ∀ x, write (cut x) = write x

/-- A form that cuts nothing off. -/
theorem IsStableForm.exact {α : Type} {read? : Tree → Option α} {write : α → Json}
    {isLegible : α → Prop}
    (hread : ∀ {t : Tree}, t.HasFiniteNumbers → ∀ {x : α}, read? t = some x → isLegible x)
    (hback : ∀ {x : α}, isLegible x → read? (Tree.ofJson (write x)) = some x) :
    IsStableForm read? write (fun _ => True) id where
  readBack _ _ ht h _ := hback (hread ht h)
  rewritten _ := rfl

theorem isStableForm_reading : IsStableForm Reading.ofTree? Reading.toJson
    (fun x => x.timestamp.HasPlainYear) Reading.truncated where
  readBack _ _ ht h hyear := Reading.ofJson?_toJson ⟨Reading.isFinite_of_ofTree? ht h, hyear⟩
  rewritten := Reading.toJson_truncated

theorem isStableForm_entry : IsStableForm Trail.Entry.ofTree? Trail.Entry.toJson
    (fun e => e.recordedAt.HasPlainYear) Trail.Entry.truncated where
  readBack _ _ _ h hyear :=
    Trail.Entry.ofJson?_toJson (Trail.Entry.isStable_of_ofTree? h) hyear
  rewritten := Trail.Entry.toJson_truncated

/-- The submission in an entry is the one that was evaluated, whatever its result was. -/
theorem snapshot_entryOf {t : Tree} (ht : t.HasFiniteNumbers) {s : Submission}
    (h : Submission.ofTree? t = some s) (result : Except EvaluationFailure Outcome)
    {recorded : Instant} (hyear : recorded.HasPlainYear) :
    ∃ e, Trail.Entry.ofJson? (Evaluator.entryOf s result recorded).toJson = some e ∧
      e.recordedAt = recorded.truncated ∧ Submission.ofTree? (Tree.ofJson e.request) = some s := by
  have hrequest : (Evaluator.entryOf s result recorded).request = s.toJson := by
    cases result <;> rfl
  have htime : (Evaluator.entryOf s result recorded).recordedAt = recorded := by
    cases result <;> rfl
  refine ⟨_, Trail.Entry.ofJson?_toJson ?_ ?_, ?_, ?_⟩
  · rw [hrequest]
    exact s.isStable_toJson
  · rw [htime]
    exact hyear
  · exact congrArg Instant.truncated htime
  · simp only [hrequest]
    exact Submission.ofTree?_toJson (Submission.isLegible_of_ofTree? ht h)

/-- The written forms of all types are stable, in years of four digits, and the submission in an
entry of the trail is the one that was evaluated. A tree stands for any document, also one with
repeated keys or a record written as an array. -/
theorem forms_stable :
    IsStableForm Reading.ofTree? Reading.toJson (fun x => x.timestamp.HasPlainYear)
      Reading.truncated ∧
    IsStableForm Datum.ofTree? Datum.toJson (fun _ => True) id ∧
    IsStableForm Condition.ofTree? Condition.toJson (fun _ => True) id ∧
    IsStableForm Submission.ofTree? Submission.toJson (fun _ => True) id ∧
    IsStableForm Trail.Entry.ofTree? Trail.Entry.toJson (fun e => e.recordedAt.HasPlainYear)
      Trail.Entry.truncated ∧
    IsStableForm Outcome.ofTree? Outcome.toJson (fun _ => True) id ∧
    ∀ (t : Tree) (s : Submission), t.HasFiniteNumbers → Submission.ofTree? t = some s →
      ∀ (result : Except EvaluationFailure Outcome) (recorded : Instant), recorded.HasPlainYear →
        ∃ e, Trail.Entry.ofJson? (Evaluator.entryOf s result recorded).toJson = some e ∧
          e.recordedAt = recorded.truncated ∧
          Submission.ofTree? (Tree.ofJson e.request) = some s := by
  refine ⟨isStableForm_reading, ?_, ?_, ?_, isStableForm_entry, ?_, ?_⟩
  · exact .exact Datum.isFinite_ofTree? Datum.ofTree?_toJson
  · exact .exact Condition.isLegible_of_ofTree? Condition.ofTree?_toJson
  · exact .exact Submission.isLegible_of_ofTree? Submission.ofTree?_toJson
  · exact .exact Outcome.isLegible_of_ofTree? Outcome.ofTree?_toJson
  · intro t s ht h result recorded hyear
    exact snapshot_entryOf ht h result hyear

/-- A reading as an array, with more digits in its timestamp than are kept. -/
def listedReading : String :=
  "[\"boiler\", \"level\", 3, \"2024-05-01T10:00:00.1234567+02:00\"]"

/-- A submission as an array, with some terms `null` and its last one left out. -/
def listedSubmission : String :=
  "[\"boiler\", \"level\", \"3\", null, \"low\", \"level\", null, null, 4, 0.5, 60]"

theorem forms_stable_of_arrays :
    let recorded := (Instant.ofText? "2024-05-01T10:00:01Z").getD .earliest
    (∃ t x, Tree.ofText? listedReading = some t ∧ Reading.ofTree? t = some x ∧ x.truncated ≠ x ∧
      Reading.ofTree? (Tree.ofJson x.toJson) = some x.truncated) ∧
    ∃ t s e, Tree.ofText? listedSubmission = some t ∧ Submission.ofTree? t = some s ∧
      Trail.Entry.ofJson? (Evaluator.entryOf s (.error (.badRule "")) recorded).toJson = some e ∧
      Submission.ofTree? (Tree.ofJson e.request) = some s := by
  intro recorded
  obtain ⟨hreading, -, -, -, -, -, hsnapshot⟩ := forms_stable
  refine ⟨?_, ?_⟩
  · have hread : ((Tree.ofText? listedReading).bind Reading.ofTree?).any (fun x =>
        x.timestamp.HasPlainYear ∧ x.timestamp.truncated ≠ x.timestamp) = true := by
      decide +kernel
    obtain ⟨x, hx, hplain⟩ := (Option.any_eq_true _ _).mp hread
    obtain ⟨t, ht, hx⟩ := Option.bind_eq_some_iff.mp hx
    obtain ⟨hyear, hcut⟩ := of_decide_eq_true hplain
    exact ⟨t, x, ht, hx, fun h => hcut (congrArg Reading.timestamp h),
      hreading.readBack t x (Tree.hasFiniteNumbers_ofText? ht) hx hyear⟩
  · have hread : ((Tree.ofText? listedSubmission).bind Submission.ofTree?).isSome = true := by
      decide +kernel
    obtain ⟨s, hs⟩ := Option.isSome_iff_exists.mp hread
    obtain ⟨t, ht, hs⟩ := Option.bind_eq_some_iff.mp hs
    obtain ⟨e, he, -, hrequest⟩ := hsnapshot t s (Tree.hasFiniteNumbers_ofText? ht) hs
      (.error (.badRule "")) recorded (by decide +kernel)
    exact ⟨t, s, e, ht, hs, he, hrequest⟩

end Json

end TriggerWatch
