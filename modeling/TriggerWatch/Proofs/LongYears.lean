import TriggerWatch.Proofs.Timestamps

/-!
# Timestamps of long years

A year of more than four digits, or before the year 0, is written with a sign. Only the plain form
has years with a sign, and the plain form has no mark for universal time at its end. So the service
does not read such a timestamp of its own, although it reads the year in other texts and reaches it
from years of four digits by an offset.

## Main statements

- `Timestamp.plain?_eq_none` — no text in the plain form ends in the mark of universal time
- `Instant.ofText?_format_eq_none` — a timestamp of a long year is not read
- `Instant.format_truncated` — what is cut off is not written
- `Instant.ofText?_format_eq_ite` — which written timestamps are read back
-/

namespace TriggerWatch

namespace Timestamp

/-- The text ends in the mark of universal time. -/
def EndsInMark (cs : List Char) : Prop := cs.getLast? = some 'Z'

variable {cs rest : List Char}

/-- What is taken from the front of a text leaves the mark, unless the mark itself is taken. -/
theorem EndsInMark.of_append {taken : List Char} (h : EndsInMark (taken ++ rest))
    (ht : 'Z' ∉ taken) : EndsInMark rest := by
  cases rest with
  | nil =>
    rw [List.append_nil] at h
    exact absurd (List.mem_of_getLast? h) ht
  | cons c rest =>
    rw [EndsInMark, List.getLast?_append, List.getLast?_cons, Option.some_or] at h
    rwa [EndsInMark, List.getLast?_cons]

theorem EndsInMark.of_cons {c : Char} (h : EndsInMark (c :: rest)) (hc : c ≠ 'Z') :
    EndsInMark rest := by
  have hne : 'Z' ∉ [c] := by simpa using Ne.symm hc
  exact EndsInMark.of_append (show EndsInMark ([c] ++ rest) from h) hne

theorem not_mem_takeWhile {p : Char → Bool} (hp : p 'Z' = false) (cs : List Char) :
    'Z' ∉ cs.takeWhile p := by
  intro h
  have hall : (cs.takeWhile p).all p = true := List.all_takeWhile
  have hz := List.all_eq_true.mp hall 'Z' h
  rw [hp] at hz
  cases hz

theorem EndsInMark.dropWhile {p : Char → Bool} (hp : p 'Z' = false) (h : EndsInMark cs) :
    EndsInMark (cs.dropWhile p) := by
  have hsplit : cs.takeWhile p ++ cs.dropWhile p = cs := List.takeWhile_append_dropWhile
  rw [← hsplit] at h
  exact h.of_append (not_mem_takeWhile hp cs)

theorem EndsInMark.char? {c : Char} (h : EndsInMark cs) (hc : c ≠ 'Z')
    (hr : char? c cs = some rest) : EndsInMark rest := by
  cases cs with
  | nil => cases hr
  | cons d behind =>
    rw [Timestamp.char?] at hr
    by_cases hd : d = c
    · rw [if_pos hd] at hr
      cases hr
      exact h.of_cons (hd ▸ hc)
    · rw [if_neg hd] at hr
      cases hr

theorem EndsInMark.number? {width n : Nat} (h : EndsInMark cs)
    (hr : number? width cs = some (n, rest)) : EndsInMark rest := by
  rw [Timestamp.number?] at hr
  split at hr
  · cases hr
  · cases hr
    have hdigits : (cs.take width).takeWhile Char.isDigit <+: cs :=
      (List.takeWhile_prefix _).trans (List.take_prefix width cs)
    rw [← List.prefix_iff_eq_append.mp hdigits] at h
    exact h.of_append (not_mem_takeWhile (by decide) _)

theorem EndsInMark.fraction? {nanos : Nat} (h : EndsInMark cs)
    (hr : fraction? cs = some (nanos, rest)) : EndsInMark rest := by
  rw [Timestamp.fraction?.eq_def] at hr
  split at hr
  · simp only at hr
    split at hr
    · cases hr
    · cases hr
      exact (h.of_cons (by decide)).dropWhile (by decide)
  · cases hr
    exact h

theorem EndsInMark.trimStart (h : EndsInMark cs) : EndsInMark (Text.trimStart cs) :=
  h.dropWhile (by decide)

theorem EndsInMark.plainField? {n : Nat} (h : EndsInMark cs)
    (hr : plainField? cs = some (n, rest)) : EndsInMark rest :=
  h.trimStart.number? hr

theorem EndsInMark.plainYear? {year : Int} (h : EndsInMark cs)
    (hr : plainYear? cs = some (year, rest)) : EndsInMark rest := by
  have htrimmed := h.trimStart
  rw [Timestamp.plainYear?] at hr
  split at hr
  · next behind hcs =>
    obtain ⟨⟨n, left⟩, hn, heq⟩ := Option.map_eq_some_iff.mp hr
    cases heq
    rw [hcs] at htrimmed
    exact (htrimmed.of_cons (by decide)).number? hn
  · next behind hcs =>
    obtain ⟨⟨n, left⟩, hn, heq⟩ := Option.map_eq_some_iff.mp hr
    cases heq
    rw [hcs] at htrimmed
    exact (htrimmed.of_cons (by decide)).number? hn
  · obtain ⟨⟨n, left⟩, hn, heq⟩ := Option.map_eq_some_iff.mp hr
    cases heq
    exact htrimmed.number? hn

/-- No text in the plain form ends in the mark of universal time: the mark is never taken, so it is
still there at the end. -/
theorem plain?_eq_none (h : EndsInMark cs) : plain? cs = none := by
  rw [Option.eq_none_iff_forall_ne_some]
  intro t ht
  obtain ⟨⟨year, cs₁⟩, hyear, ht⟩ := Option.bind_eq_some_iff.mp ht
  obtain ⟨cs₂, hdash, ht⟩ := Option.bind_eq_some_iff.mp ht
  obtain ⟨⟨month, cs₃⟩, hmonth, ht⟩ := Option.bind_eq_some_iff.mp ht
  obtain ⟨cs₄, hdash', ht⟩ := Option.bind_eq_some_iff.mp ht
  obtain ⟨⟨day, cs₅⟩, hday, ht⟩ := Option.bind_eq_some_iff.mp ht
  obtain ⟨cs₆, htee, ht⟩ := Option.bind_eq_some_iff.mp ht
  obtain ⟨⟨hour, cs₇⟩, hhour, ht⟩ := Option.bind_eq_some_iff.mp ht
  obtain ⟨cs₈, hcolon, ht⟩ := Option.bind_eq_some_iff.mp ht
  obtain ⟨⟨minute, cs₉⟩, hminute, ht⟩ := Option.bind_eq_some_iff.mp ht
  obtain ⟨cs₁₀, hcolon', ht⟩ := Option.bind_eq_some_iff.mp ht
  obtain ⟨⟨second, cs₁₁⟩, hsecond, ht⟩ := Option.bind_eq_some_iff.mp ht
  obtain ⟨⟨nanos, left⟩, hfraction, ht⟩ := Option.bind_eq_some_iff.mp ht
  have hdate : EndsInMark cs₅ :=
    (((h.plainYear? hyear).char? (by decide) hdash).plainField? hmonth |>.char? (by decide)
      hdash').plainField? hday
  have hclock : EndsInMark cs₁₁ :=
    ((((hdate.char? (by decide) htee).plainField? hhour).char? (by decide) hcolon).plainField?
      hminute |>.char? (by decide) hcolon').plainField? hsecond
  have hleft : EndsInMark left := hclock.fraction? hfraction
  simp only at ht
  split at ht
  · next hend =>
    rw [Bool.and_eq_true, List.isEmpty_iff] at hend
    rw [hend.1] at hleft
    cases hleft
  · cases ht

theorem strict?_eq_none_of_not_isDigit {c : Char} (hc : c.isDigit = false) (rest : List Char) :
    strict? (c :: rest) = none := by
  have hyear : fixedNumber? 4 (c :: rest) = none := by
    rw [fixedNumber?, List.take_succ_cons]
    refine if_neg ?_
    rw [List.all_cons, hc, Bool.false_and, Bool.and_false]
    decide
  rw [strict?, hyear]
  rfl

end Timestamp

namespace Instant

/-- The text of a long year begins with a sign. -/
theorem yearText_eq_cons {year : Int} (h : ¬ (0 ≤ year ∧ year ≤ 9999)) :
    ∃ sign digits, yearText year = sign :: digits ∧ (sign = '-' ∨ sign = '+') := by
  refine ⟨if year < 0 then '-' else '+', padded 4 year.natAbs, if_neg h, ?_⟩
  by_cases hneg : year < 0
  · exact .inl (if_pos hneg)
  · exact .inr (if_neg hneg)

/-- The timestamp of a long year is not read. -/
theorem ofText?_format_eq_none {t : Instant} (h : ¬ t.HasPlainYear) :
    ofText? t.format = none := by
  obtain ⟨sign, digits, hyear, hsign⟩ := yearText_eq_cons h
  obtain ⟨middle, hformat⟩ : ∃ middle, t.format.toList = sign :: (middle ++ ['Z']) := by
    rw [format]
    simp only [hyear, String.toList_ofList, List.cons_append]
    exact ⟨_, rfl⟩
  have hblank : Text.isBlank sign = false := by
    rcases hsign with rfl | rfl <;> decide
  have hdigit : sign.isDigit = false := by
    rcases hsign with rfl | rfl <;> decide
  have hmark : Timestamp.EndsInMark (sign :: middle ++ ['Z']) := List.getLast?_concat
  have hstrict := Timestamp.strict?_eq_none_of_not_isDigit hdigit (middle ++ ['Z'])
  have hplain : Timestamp.plain? (sign :: (middle ++ ['Z'])) = none :=
    Timestamp.plain?_eq_none hmark
  rw [ofText?, hformat, Text.trim_eq_self sign 'Z' middle hblank (by decide), hstrict, hplain]
  rfl

/-- What lies below the microsecond is not written. -/
theorem format_truncated (t : Instant) : t.truncated.format = t.format := by
  have hsecond : t.truncated.civil.second = t.civil.second := by
    simp only [civil, truncated]
    omega
  have hmicros : t.truncated.civil.nanos / 1000 = t.civil.nanos / 1000 := by
    simp only [civil, truncated]
    omega
  have hdate : t.truncated.civil.date = t.civil.date := rfl
  have hhour : t.truncated.civil.hour = t.civil.hour := rfl
  have hminute : t.truncated.civil.minute = t.civil.minute := rfl
  simp only [format, hdate, hhour, hminute, hsecond, hmicros]

/-- The timestamp written for an instant is read back as the instant cut off at the microsecond if
its year in universal time has four digits and no sign, and is not read at all otherwise. To write
the instant cut off gives the same timestamp. -/
theorem ofText?_format_eq_ite (t : Instant) :
    ofText? t.format = (if t.HasPlainYear then some t.truncated else none) ∧
      t.truncated.format = t.format := by
  refine ⟨?_, format_truncated t⟩
  by_cases h : t.HasPlainYear
  · rw [if_pos h, ofText?_format h]
  · rw [if_neg h, ofText?_format_eq_none h]

/-- A long year is read from a text in the plain form, and reached from a year of four digits by an
offset. The timestamp written for it is not read. -/
theorem format_of_longYear :
    ((ofText? "+10000-01-01T00:00:00").map format = some "+10000-01-01T00:00:00.000000Z" ∧
      ofText? "+10000-01-01T00:00:00.000000Z" = none) ∧
    (ofText? "0000-01-01T00:30:00+01:00").map format = some "-0001-12-31T23:30:00.000000Z" ∧
      ofText? "-0001-12-31T23:30:00.000000Z" = none := by
  decide +kernel

end Instant

end TriggerWatch
