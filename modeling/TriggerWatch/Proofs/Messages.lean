import TriggerWatch.Proofs.Magnitudes
import TriggerWatch.Proofs.Readings
import TriggerWatch.Submission

/-!
# Numbers of a message

A literal too large for a finite number makes a message unreadable wherever it is wanted. So every
number that is read from the text of a message is finite, and the value of a submission can be
written into a document without loss.

## Main definitions

- `Json.Tree.HasFiniteNumbers` — every number inside a tree is finite
- `Submission.ReadsFrom` — a submission is what is read from the fields of a record

## Main statements

- `Json.Literal.isFinite_number?` — the value of a literal is finite
- `Json.Tree.hasFiniteNumbers_ofText?` — so are the numbers of a text
- `Submission.ofTree?_eq_some_iff` — a submission is read field by field
- `Submission.isFinite_value` — so is the value of a submission
-/

namespace TriggerWatch

namespace Json

open Magnitude

/-! ### Literals -/

theorem collect_le {limit n : Nat} (h : n ≤ limit) (digits : List Char) :
    (collect limit n digits).1 ≤ limit := by
  induction digits generalizing n with
  | nil => exact h
  | cons c rest ih =>
    rw [collect]
    by_cases hnext : 10 * n + (c.toNat - '0'.toNat) ≤ limit
    · rw [if_pos hnext]
      exact ih hnext
    · rw [if_neg hnext]
      exact h

/-- Each division by a power of ten gains at most as many places as a mantissa has. -/
theorem within_scaleDown {k : Int} {x : Float} (h : Within k x) (hlow : -1127 ≤ k) (fuel : Nat)
    (hk : k + 53 * fuel ≤ 971) (power : Nat) : Within (k + 53 * fuel) (scaleDown fuel x power) := by
  induction fuel generalizing k x power with
  | zero => exact h.mono (by omega)
  | succ fuel ih =>
    rw [scaleDown]
    by_cases hpower : power ≤ 308
    · rw [if_pos hpower]
      exact (within_div_tenTo h hlow (by omega) power hpower).mono (by omega)
    · rw [if_neg hpower]
      by_cases hzero : (x == 0.0) = true
      · rw [if_pos hzero]
        exact h.mono (by omega)
      · rw [if_neg hzero]
        have hdiv := within_div_tenTo h hlow (by omega) 308 (Nat.le_refl _)
        exact (ih hdiv (by omega) (by omega) (power - 308)).mono (by omega)

theorem isFinite_scaled? {significand : Nat} (h : significand ≤ maxSignificand) {power : Int}
    {x : Float} (hx : scaled? significand power = some x) : x.isFinite = true := by
  have hwithin : Within 14 (Float.ofNat significand) :=
    within_ofNat (Nat.le_trans h (by decide))
  rw [scaled?] at hx
  by_cases hnegative : power < 0
  · rw [if_pos hnegative] at hx
    cases hx
    exact (within_scaleDown hwithin (by decide) 4 (by decide) power.natAbs).isFinite
  · rw [if_neg hnegative] at hx
    by_cases hlarge : 308 < power
    · rw [if_pos hlarge] at hx
      split at hx
      · cases hx
        exact hwithin.isFinite
      · cases hx
    · rw [if_neg hlarge] at hx
      simp only at hx
      split at hx
      · cases hx
      · next hinf =>
        cases hx
        exact isFinite_mul hwithin.isFinite (isFinite_tenTo _ (by omega))
          (Bool.eq_false_iff.mpr hinf)

theorem Literal.isFinite_magnitude? {l : Literal} {x : Float} (h : l.magnitude? = some x) :
    x.isFinite = true := by
  rw [magnitude?] at h
  have hsignificand := collect_le (collect_le (Nat.zero_le maxSignificand) l.whole)
    (l.part.getD [])
  simp only at h
  split at h
  · exact isFinite_scaled? hsignificand h
  · split at h
    · exact isFinite_scaled? hsignificand h
    · split at h
      · cases h
      · cases h
        rfl

theorem isFinite_toFloat_int {n : Int} (h : n.natAbs ≤ maxSignificand) :
    (Number.int n).toFloat.isFinite = true := by
  have hwithin : Within 14 (Float.ofNat n.natAbs) := within_ofNat (Nat.le_trans h (by decide))
  rw [Number.toFloat]
  split
  · exact isFinite_neg hwithin.isFinite
  · exact hwithin.isFinite

theorem Literal.isFinite_number? {l : Literal} {n : Number} (h : l.number? = some n) :
    n.toFloat.isFinite = true := by
  have hwhole : (collect maxSignificand 0 l.whole).1 ≤ maxSignificand :=
    collect_le (Nat.zero_le _) _
  rw [number?] at h
  simp only at h
  split at h
  · split at h
    · cases h
      exact isFinite_toFloat_int (by rwa [Int.natAbs_natCast])
    · split at h
      · cases h
        exact isFinite_toFloat_int (by rwa [Int.natAbs_neg, Int.natAbs_natCast])
      · cases h
        exact isFinite_neg (within_ofNat (Nat.le_trans hwhole (by decide))).isFinite
  · obtain ⟨x, hx, rfl⟩ := Option.map_eq_some_iff.mp h
    have hfinite := isFinite_magnitude? hx
    rw [Number.toFloat]
    split
    · exact isFinite_neg hfinite
    · exact hfinite

/-! ### Texts -/

/-- Every number inside a tree is finite. -/
inductive Tree.HasFiniteNumbers : Tree → Prop
  | null : HasFiniteNumbers .null
  | bool (b : Bool) : HasFiniteNumbers (.bool b)
  | number {n : Number} (h : n.toFloat.isFinite = true) : HasFiniteNumbers (.number n)
  | string (s : String) : HasFiniteNumbers (.string s)
  | unreadable : HasFiniteNumbers .unreadable
  | array {items : List Tree} (h : ∀ t ∈ items, HasFiniteNumbers t) :
    HasFiniteNumbers (.array items)
  | object {members : List (Option String × Tree)} (h : ∀ m ∈ members, HasFiniteNumbers m.2) :
    HasFiniteNumbers (.object members)

namespace Parser

open Json.Tree (HasFiniteNumbers)

/-- What the three readers of values, items and members return with some fuel. -/
structure ReadsFinite (fuel : Nat) : Prop where
  value : ∀ {depth cs t rest}, value? fuel depth cs = some (t, rest) → HasFiniteNumbers t
  items : ∀ {depth cs items rest}, items? fuel depth cs = some (items, rest) →
    ∀ t ∈ items, HasFiniteNumbers t
  members : ∀ {depth cs members rest}, members? fuel depth cs = some (members, rest) →
    ∀ m ∈ members, HasFiniteNumbers m.2

variable {fuel depth : Nat} {cs rest : List Char}

theorem ReadsFinite.value?_succ (ih : ReadsFinite fuel) {t : Tree}
    (h : value? (fuel + 1) depth cs = some (t, rest)) : HasFiniteNumbers t := by
  have hkeep {t : Tree} (ht : HasFiniteNumbers t) :
      HasFiniteNumbers (if depth ≤ maxDepth then t else .unreadable) := by
    split
    · exact ht
    · exact .unreadable
  rw [value?] at h
  simp only at h
  split at h
  · cases h
  · obtain ⟨⟨text, behind⟩, -, heq⟩ := Option.map_eq_some_iff.mp h
    cases heq
    cases text with
    | none => exact .unreadable
    | some s => exact .string s
  · split at h
    · cases h
      exact hkeep (.array (List.forall_mem_nil _))
    · obtain ⟨⟨items, behind⟩, hitems, heq⟩ := Option.map_eq_some_iff.mp h
      cases heq
      exact hkeep (.array (ih.items hitems))
  · split at h
    · cases h
      exact hkeep (.object (List.forall_mem_nil _))
    · obtain ⟨⟨members, behind⟩, hmembers, heq⟩ := Option.map_eq_some_iff.mp h
      cases heq
      exact hkeep (.object (ih.members hmembers))
  · obtain ⟨behind, -, heq⟩ := Option.map_eq_some_iff.mp h
    cases heq
    exact .null
  · obtain ⟨behind, -, heq⟩ := Option.map_eq_some_iff.mp h
    cases heq
    exact .bool true
  · obtain ⟨behind, -, heq⟩ := Option.map_eq_some_iff.mp h
    cases heq
    exact .bool false
  · obtain ⟨⟨literal, behind⟩, -, heq⟩ := Option.map_eq_some_iff.mp h
    cases heq
    cases hnumber : literal.number? with
    | none => exact .unreadable
    | some n => exact .number (literal.isFinite_number? hnumber)

theorem ReadsFinite.items?_succ (ih : ReadsFinite fuel) {items : List Tree}
    (h : items? (fuel + 1) depth cs = some (items, rest)) : ∀ t ∈ items, HasFiniteNumbers t := by
  rw [items?] at h
  obtain ⟨⟨item, behind⟩, hitem, h⟩ := Option.bind_eq_some_iff.mp h
  have hfirst := ih.value hitem
  simp only at h
  split at h
  · cases h
    exact List.forall_mem_singleton.mpr hfirst
  · obtain ⟨⟨others, behind'⟩, hothers, heq⟩ := Option.map_eq_some_iff.mp h
    cases heq
    exact List.forall_mem_cons.mpr ⟨hfirst, ih.items hothers⟩
  · cases h

theorem ReadsFinite.members?_succ (ih : ReadsFinite fuel) {members : List (Option String × Tree)}
    (h : members? (fuel + 1) depth cs = some (members, rest)) :
    ∀ m ∈ members, HasFiniteNumbers m.2 := by
  rw [members?] at h
  split at h
  · obtain ⟨⟨key, behind⟩, -, h⟩ := Option.bind_eq_some_iff.mp h
    simp only at h
    split at h
    · obtain ⟨⟨value, behind'⟩, hvalue, h⟩ := Option.bind_eq_some_iff.mp h
      have hfirst := ih.value hvalue
      simp only at h
      split at h
      · cases h
        exact List.forall_mem_singleton.mpr hfirst
      · obtain ⟨⟨others, behind''⟩, hothers, heq⟩ := Option.map_eq_some_iff.mp h
        cases heq
        exact List.forall_mem_cons.mpr ⟨hfirst, ih.members hothers⟩
      · cases h
    · cases h
  · cases h

theorem readsFinite (fuel : Nat) : ReadsFinite fuel := by
  induction fuel with
  | zero =>
    refine ⟨fun h => ?_, fun h => ?_, fun h => ?_⟩
    · rw [value?] at h
      cases h
    · rw [items?] at h
      cases h
    · rw [members?] at h
      cases h
  | succ fuel ih => exact ⟨ih.value?_succ, ih.items?_succ, ih.members?_succ⟩

end Parser

theorem Tree.hasFiniteNumbers_ofText? {text : String} {t : Tree} (h : ofText? text = some t) :
    t.HasFiniteNumbers := by
  obtain ⟨⟨tree, rest⟩, hvalue, h⟩ := Option.bind_eq_some_iff.mp h
  simp only at h
  split at h
  · cases h
    exact (Parser.readsFinite _).value hvalue
  · cases h

/-! ### Records -/

theorem mem_of_readableKeys? {members : List (Option String × Tree)}
    {readable : List (String × Tree)} (h : Tree.readableKeys? members = some readable)
    {m : String × Tree} (hm : m ∈ readable) : (some m.1, m.2) ∈ members := by
  induction members generalizing readable with
  | nil =>
    cases h
    cases hm
  | cons first rest ih =>
    obtain ⟨key, t⟩ := first
    rw [Tree.readableKeys?] at h
    obtain ⟨k, rfl, h⟩ := Option.bind_eq_some_iff.mp h
    obtain ⟨others, hothers, rfl⟩ := Option.map_eq_some_iff.mp h
    rcases List.mem_cons.mp hm with rfl | hm
    · exact List.mem_cons_self
    · exact List.mem_cons_of_mem _ (ih hothers hm)

theorem Tree.HasFiniteNumbers.fields {t : Tree} (ht : t.HasFiniteNumbers) {names : List String}
    {r : Record} (h : t.record? names = some r) : ∀ m ∈ r.fields, m.2.HasFiniteNumbers := by
  intro m hm
  cases ht with
  | null => cases h
  | bool b => cases h
  | number hn => cases h
  | string s => cases h
  | unreadable => cases h
  | array hitems =>
    rw [record?] at h
    split at h
    · cases h
      exact hitems m.2 (List.of_mem_zip hm).2
    · cases h
  | object hmembers =>
    rw [record?] at h
    obtain ⟨readable, hreadable, h⟩ := Option.bind_eq_some_iff.mp h
    simp only at h
    split at h
    · cases h
      exact hmembers _ (mem_of_readableKeys? hreadable (List.mem_filter.mp hm).1)
    · cases h

end Json

theorem Dict.mem_of_get? {α : Type} {d : Dict α} {key : String} {v : α}
    (h : d.get? key = some v) : (key, v) ∈ d := by
  induction d with
  | nil => cases h
  | cons p rest ih =>
    obtain ⟨k, w⟩ := p
    rw [get?_cons] at h
    by_cases hk : k = key
    · rw [if_pos hk] at h
      cases h
      rw [hk]
      exact List.mem_cons_self
    · rw [if_neg hk] at h
      exact List.mem_cons_of_mem _ (ih h)

theorem Datum.isFinite_ofTree? {t : Json.Tree} (ht : t.HasFiniteNumbers) {v : Datum}
    (h : ofTree? t = some v) : v.IsFinite := by
  cases ht with
  | number hn =>
    cases h
    exact hn
  | string s =>
    cases h
    trivial
  | null => cases h
  | bool b => cases h
  | unreadable => cases h
  | array _ => cases h
  | object _ => cases h

deriving instance DecidableEq for Datum

deriving instance DecidableEq for Submission

namespace Submission

/-- The fields of a submission are what is read from the fields of a record. -/
structure ReadsFrom (s : Submission) (r : Json.Record) : Prop where
  device : r.required "device" Json.Tree.text? = some s.device
  attr : r.required "attribute" Json.Tree.text? = some s.attr
  value : r.required "value" Datum.ofTree? = some s.value
  timestamp : optionalField r "timestamp" Json.Tree.text? = some s.timestamp
  trigger : r.required "trigger_name" Json.Tree.text? = some s.trigger
  triggerAttr : r.required "trigger_attribute" Json.Tree.text? = some s.triggerAttr
  equals : optionalField r "trigger_value" Datum.ofTree? = some s.equals
  above : optionalField r "trigger_upper_limit" Json.Tree.float? = some s.above
  below : optionalField r "trigger_lower_limit" Json.Tree.float? = some s.below
  certainty : optionalField r "trigger_certainty" Json.Tree.float? = some s.certainty
  period : optionalField r "trigger_period" signed64? = some s.period
  beacon : optionalField r "value_map_beacon_to_class" Json.Tree.text? = some s.beacon

/-- A submission is read field by field. -/
theorem ofTree?_eq_some_iff {t : Json.Tree} {s : Submission} :
    ofTree? t = some s ↔ ∃ r, t.record? fieldNames = some r ∧ s.ReadsFrom r := by
  constructor
  · intro h
    obtain ⟨r, hr, h⟩ := Option.bind_eq_some_iff.mp h
    obtain ⟨_, device, h⟩ := Option.bind_eq_some_iff.mp h
    obtain ⟨_, attr, h⟩ := Option.bind_eq_some_iff.mp h
    obtain ⟨_, value, h⟩ := Option.bind_eq_some_iff.mp h
    obtain ⟨_, timestamp, h⟩ := Option.bind_eq_some_iff.mp h
    obtain ⟨_, trigger, h⟩ := Option.bind_eq_some_iff.mp h
    obtain ⟨_, triggerAttr, h⟩ := Option.bind_eq_some_iff.mp h
    obtain ⟨_, equals, h⟩ := Option.bind_eq_some_iff.mp h
    obtain ⟨_, above, h⟩ := Option.bind_eq_some_iff.mp h
    obtain ⟨_, below, h⟩ := Option.bind_eq_some_iff.mp h
    obtain ⟨_, certainty, h⟩ := Option.bind_eq_some_iff.mp h
    obtain ⟨_, period, h⟩ := Option.bind_eq_some_iff.mp h
    obtain ⟨_, beacon, h⟩ := Option.bind_eq_some_iff.mp h
    cases h
    exact ⟨r, hr, device, attr, value, timestamp, trigger, triggerAttr, equals, above, below,
      certainty, period, beacon⟩
  · rintro ⟨r, hr, hreads⟩
    -- the fields are taken one by one: the whole chain is too long for one rewriting
    refine Option.bind_eq_some_iff.mpr ⟨r, hr, ?_⟩
    refine Option.bind_eq_some_iff.mpr ⟨_, hreads.device, ?_⟩
    refine Option.bind_eq_some_iff.mpr ⟨_, hreads.attr, ?_⟩
    refine Option.bind_eq_some_iff.mpr ⟨_, hreads.value, ?_⟩
    refine Option.bind_eq_some_iff.mpr ⟨_, hreads.timestamp, ?_⟩
    refine Option.bind_eq_some_iff.mpr ⟨_, hreads.trigger, ?_⟩
    refine Option.bind_eq_some_iff.mpr ⟨_, hreads.triggerAttr, ?_⟩
    refine Option.bind_eq_some_iff.mpr ⟨_, hreads.equals, ?_⟩
    refine Option.bind_eq_some_iff.mpr ⟨_, hreads.above, ?_⟩
    refine Option.bind_eq_some_iff.mpr ⟨_, hreads.below, ?_⟩
    refine Option.bind_eq_some_iff.mpr ⟨_, hreads.certainty, ?_⟩
    refine Option.bind_eq_some_iff.mpr ⟨_, hreads.period, ?_⟩
    exact Option.bind_eq_some_iff.mpr ⟨_, hreads.beacon, rfl⟩

theorem isFinite_value {text : String} {s : Submission} (h : ofText? text = some s) :
    s.value.IsFinite := by
  obtain ⟨t, ht, h⟩ := Option.bind_eq_some_iff.mp h
  obtain ⟨r, hr, hreads⟩ := ofTree?_eq_some_iff.mp h
  obtain ⟨field, hfield, hread⟩ := Option.bind_eq_some_iff.mp hreads.value
  have hfields := (Json.Tree.hasFiniteNumbers_ofText? ht).fields hr
  exact Datum.isFinite_ofTree? (hfields _ (Dict.mem_of_get? hfield)) hread

end Submission

end TriggerWatch
