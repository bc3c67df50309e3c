import TriggerWatch.Time.Instant

/-!
# The order of instants and moving along it

Instants are compared by their seconds and then by the nanoseconds into the second, so a leap second
lies between its second and the next one. A move by at least a second leads out of a leap second.

## Main statements

- `Instant.le_iff` — the order by seconds and nanoseconds
- `Instant.add?_of_second_le` — a move by a second or more leaves a leap second
- `Instant.seconds_lt_of_add?` — a move forward by a second or more reaches a later second
- `Instant.le_truncated_of_add?` — so it is not undone by cutting off at the microsecond
- `Instant.sub?_of_nonneg` — a move backward stays in a leap second or is found by its distance
- `Instant.exists_sub?` — a shorter move backward from a later instant ends later
- `Instant.sub?_le_sub?_of_le` — so does any move off leap seconds
-/

namespace TriggerWatch.Instant

theorem le_iff (a b : Instant) :
    a ≤ b ↔ a.seconds < b.seconds ∨ (a.seconds = b.seconds ∧ a.nanos ≤ b.nanos) := by
  rw [le_iff_not_lt, lt_iff]
  omega

theorem le_refl (a : Instant) : a ≤ a := by
  rw [le_iff]
  omega

theorem le_trans {a b c : Instant} (hab : a ≤ b) (hbc : b ≤ c) : a ≤ c := by
  rw [le_iff] at *
  omega

theorem not_isLeap_truncated {t : Instant} (h : ¬ t.isLeap) : ¬ t.truncated.isLeap := by
  simp only [isLeap, truncated] at h ⊢
  omega

/-- A distance belongs to no instant only if it lies before or after the calendar. -/
theorem ofNanos?_eq_none_iff (n : Int) :
    ofNanos? n = none ↔ n < firstSecond * 1000000000 ∨ (lastSecond + 1) * 1000000000 ≤ n := by
  rw [ofNanos?, ofParts?]
  by_cases h : firstSecond ≤ n / 1000000000 ∧ n / 1000000000 ≤ lastSecond
  · rw [dif_pos ⟨h.1, h.2, by omega, by omega⟩]
    simp only [reduceCtorEq, false_iff]
    omega
  · rw [dif_neg (fun hc => h ⟨hc.1, hc.2.1⟩)]
    simp only [true_iff]
    omega

/-- A move forward by a second or more is found by the distance from the next second on. -/
theorem add?_of_second_le {t : Instant} {d : Span} (hd : 1000000000 ≤ d.nanos) :
    t.add? d =
      ofNanos? (if t.isLeap then t.toNanos - 1000000000 + d.nanos else t.toNanos + d.nanos) := by
  rw [add?]
  by_cases hl : t.isLeap
  · have hout : 2000000000 ≤ t.nanos + d.nanos := by
      rw [isLeap] at hl
      omega
    rw [if_neg (not_not_intro hl), if_pos hout, if_pos hl]
  · rw [if_pos hl, if_neg hl]

/-- A move forward by a second or more reaches a later second. -/
theorem seconds_lt_of_add? {t u : Instant} {d : Span} (hd : 1000000000 ≤ d.nanos)
    (h : t.add? d = some u) : t.seconds < u.seconds := by
  rw [add?_of_second_le hd] at h
  have hn := t.nanos_lt
  have hu := toNanos_of_ofNanos? h
  have hleap := not_isLeap_of_ofNanos? h
  by_cases hl : t.isLeap
  · rw [if_pos hl] at hu
    simp only [toNanos, isLeap] at hu hleap hl
    omega
  · rw [if_neg hl] at hu
    simp only [toNanos, isLeap] at hu hleap
    omega

/-- An instant that lies a second or more back is not after the present cut off at the
microsecond. -/
theorem le_truncated_of_add? {t u now : Instant} {d : Span} (hd : 1000000000 ≤ d.nanos)
    (h : t.add? d = some u) (hnow : u ≤ now) : t ≤ now.truncated := by
  have hs := seconds_lt_of_add? hd h
  rw [le_iff] at hnow ⊢
  simp only [truncated]
  omega

/-- A move backward within a leap second stays in its second; any other one is found by its
distance. -/
theorem sub?_of_nonneg {t : Instant} {d : Span} (hd : 0 ≤ d.nanos) :
    t.sub? d =
      if t.isLeap ∧ d.nanos < 1000000000 then ofParts? t.seconds (t.nanos - d.nanos).toNat
      else ofNanos? (t.toNanos - d.nanos) := by
  have hn := t.nanos_lt
  rw [sub?, add?, Span.nanos_neg]
  by_cases hl : t.isLeap
  · rw [if_neg (not_not_intro hl), if_neg (by omega)]
    by_cases hs : d.nanos < 1000000000
    · rw [if_neg (by omega), if_pos ⟨hl, hs⟩, Int.sub_eq_add_neg]
    · rw [if_pos (by omega), if_neg (fun h => hs h.2), Int.sub_eq_add_neg]
  · rw [if_pos hl, if_neg (fun h => hl h.1), Int.sub_eq_add_neg]

/-- Off leap seconds a shorter move backward from a later instant stays in the calendar and does not
end earlier. -/
theorem exists_sub? {t t' u : Instant} {d d' : Span} (ht : ¬ t.isLeap) (ht' : ¬ t'.isLeap)
    (htt : t ≤ t') (hd' : 0 ≤ d'.nanos) (hdd : d'.nanos ≤ d.nanos) (h : t.sub? d = some u) :
    ∃ u', t'.sub? d' = some u' ∧ u ≤ u' := by
  rw [sub?_of_nonneg (by omega), if_neg (fun hl => ht hl.1)] at h
  rw [sub?_of_nonneg hd', if_neg (fun hl => ht' hl.1)]
  rw [le_iff_toNanos_le ht ht'] at htt
  have hu := toNanos_of_ofNanos? h
  cases hs : ofNanos? (t'.toNanos - d'.nanos) with
  | none =>
    have hfirst := u.first_le
    have hlast := t'.le_last
    rw [ofNanos?_eq_none_iff] at hs
    simp only [toNanos, isLeap] at hu ht' htt hs
    omega
  | some u' =>
    refine ⟨u', rfl, ?_⟩
    have hu' := toNanos_of_ofNanos? hs
    rw [le_iff_toNanos_le (not_isLeap_of_ofNanos? h) (not_isLeap_of_ofNanos? hs)]
    omega

/-- Off leap seconds a move from a later instant does not end earlier. -/
theorem sub?_le_sub?_of_le {t t' u u' : Instant} {d : Span} (ht : ¬ t.isLeap)
    (ht' : ¬ t'.isLeap) (h : t ≤ t') (hu : t.sub? d = some u) (hu' : t'.sub? d = some u') :
    u ≤ u' := by
  rw [sub?, add?, if_pos ht] at hu
  rw [sub?, add?, if_pos ht'] at hu'
  rw [le_iff_toNanos_le (not_isLeap_of_ofNanos? hu) (not_isLeap_of_ofNanos? hu'),
    toNanos_of_ofNanos? hu, toNanos_of_ofNanos? hu']
  rw [le_iff_toNanos_le ht ht'] at h
  omega

theorem sub?_zero (t : Instant) : t.sub? ⟨0⟩ = some t := by
  rw [sub?_of_nonneg (Int.le_refl 0)]
  by_cases hl : t.isLeap
  · rw [if_pos ⟨hl, by decide⟩, Int.sub_zero, Int.toNat_natCast, ofParts?]
    exact dif_pos ⟨t.first_le, t.le_last, t.nanos_lt, t.leap_at_end⟩
  · rw [if_neg (fun h => hl h.1), Int.sub_zero]
    exact ofNanos?_toNanos hl

end TriggerWatch.Instant
