import TriggerWatch.Time.Format
import TriggerWatch.Time.Reader

/-!
# Written timestamps are read back

The service keeps its times as text, so what it remembers of an instant is what the reader finds in
the written timestamp. In the years with four digits that is the instant cut off at the microsecond.
The proof goes from the digits over the fields of fixed width to the date and the time of day, which
give back the day number and the second.

## Main statements

- `Calendar.toDay_dateOf` — the date of a day has the number of that day
- `Timestamp.fixedNumber?_padded` — a padded number is read back by a field of its width
- `Instant.instant?_civil` — a civil time without parts of a microsecond gives the instant cut off
- `Instant.ofText?_format` — the timestamp of an instant is read as the instant cut off
-/

namespace TriggerWatch

namespace Calendar

/-- A day within the months is split into a month, a day of that month and the days before it. -/
theorem monthAndDay_spec (lengths : List Nat) (day : Nat)
    (h : day < lengths.foldr (· + ·) 0) :
    1 ≤ (monthAndDay lengths day).1 ∧ (monthAndDay lengths day).1 ≤ lengths.length ∧
      1 ≤ (monthAndDay lengths day).2 ∧
      (monthAndDay lengths day).2 ≤ lengths.getD ((monthAndDay lengths day).1 - 1) 0 ∧
      (lengths.take ((monthAndDay lengths day).1 - 1)).foldr (· + ·) 0 +
        (monthAndDay lengths day).2 = day + 1 := by
  induction lengths generalizing day with
  | nil => simp at h
  | cons length rest ih =>
    rw [List.foldr_cons] at h
    by_cases hd : day < length
    · have he : monthAndDay (length :: rest) day = (1, day + 1) := by
        simp only [monthAndDay, hd, if_true]
      rw [he]
      refine ⟨Nat.le_refl 1, by simp, by simp, ?_, by simp⟩
      simp only [Nat.sub_self, List.getD_cons_zero]
      omega
    · have he : monthAndDay (length :: rest) day =
          ((monthAndDay rest (day - length)).1 + 1, (monthAndDay rest (day - length)).2) := by
        simp only [monthAndDay, hd, if_false]
      obtain ⟨hm, hl, hp, hle, hsum⟩ := ih (day - length) (by omega)
      rw [he]
      generalize monthAndDay rest (day - length) = p at hm hl hp hle hsum
      obtain ⟨k, hk⟩ : ∃ k, p.1 = k + 1 := ⟨p.1 - 1, by omega⟩
      rw [hk] at hle hsum hl ⊢
      refine ⟨by omega, by simpa using hl, hp, by simpa using hle, ?_⟩
      simp only [Nat.add_sub_cancel, List.take_succ_cons, List.foldr_cons] at hsum ⊢
      omega

theorem foldr_monthLengths (year : Int) :
    ((monthLengths (isLeap year)).foldr (· + ·) 0 : Nat) = yearLength year := by
  unfold yearLength
  cases isLeap year <;> rfl

/-- The day of the year of a day lies within its months. -/
theorem dayOfYear_lt (day : Int) :
    (day - daysBeforeYear (yearOf day)).toNat <
      (monthLengths (isLeap (yearOf day))).foldr (· + ·) 0 := by
  have hl := daysBeforeYear_yearOf_le day
  have hh := lt_daysBeforeYear_yearOf day
  have hs := foldr_monthLengths (yearOf day)
  rw [daysBeforeYear_succ] at hh
  omega

theorem length_monthLengths (leap : Bool) : (monthLengths leap).length = 12 := rfl

theorem monthLength_le (year : Int) (month : Nat) : monthLength year month ≤ 31 := by
  have hle : ∀ n ∈ monthLengths (isLeap year), n ≤ 31 := by
    cases isLeap year <;> decide
  rw [monthLength]
  split
  · omega
  · rw [List.getD_eq_getElem?_getD]
    cases h : (monthLengths (isLeap year))[month - 1]? with
    | none => simp
    | some n => exact hle n (List.mem_of_getElem? h)

theorem isValid_dateOf (day : Int) : (dateOf day).isValid = true := by
  obtain ⟨hm, hl, hp, hle, -⟩ := monthAndDay_spec _ _ (dayOfYear_lt day)
  rw [length_monthLengths] at hl
  have hne : (dateOf day).month ≠ 0 := Nat.one_le_iff_ne_zero.mp hm
  simp only [Date.isValid, monthLength, hne, if_false, Bool.and_eq_true, decide_eq_true_eq]
  exact ⟨⟨⟨hm, hl⟩, hp⟩, hle⟩

theorem toDay_dateOf (day : Int) : (dateOf day).toDay = day := by
  obtain ⟨-, -, -, -, hsum⟩ := monthAndDay_spec _ _ (dayOfYear_lt day)
  have hl := daysBeforeYear_yearOf_le day
  have hd : (daysBeforeMonth (dateOf day).year (dateOf day).month : Int) + (dateOf day).day =
      (day - daysBeforeYear (yearOf day)).toNat + 1 := by
    exact_mod_cast hsum
  have hy : (dateOf day).year = yearOf day := rfl
  rw [Date.toDay, hy]
  rw [hy] at hd
  omega

end Calendar

/-! ### Civil time -/

theorem Instant.isValid_civil (t : Instant) : t.civil.isValid = true := by
  have hn := t.nanos_lt
  unfold Civil.isValid civil
  rw [Calendar.isValid_dateOf, Bool.true_and]
  simp only [Bool.and_eq_true, decide_eq_true_eq]
  omega

/-- A civil time exists whatever part of its nanoseconds is cut off. -/
theorem Civil.isValid_of_nanos_le {c : Civil} (h : c.isValid = true) {nanos : Nat}
    (hle : nanos ≤ c.nanos) : { c with nanos : Civil }.isValid = true := by
  simp only [isValid, Bool.and_eq_true, decide_eq_true_eq] at h ⊢
  exact ⟨h.1, by omega⟩

/-- A civil time without parts of a microsecond gives the instant cut off at the microsecond. -/
theorem Instant.instant?_civil (t : Instant) :
    { t.civil with nanos := t.civil.nanos / 1000 * 1000 : Civil }.instant? 0 =
      some t.truncated := by
  have hday := Calendar.toDay_dateOf (t.seconds / 86400)
  have hvalid := Civil.isValid_of_nanos_le t.isValid_civil (Nat.div_mul_le_self t.civil.nanos 1000)
  rw [Civil.instant?, if_pos hvalid]
  obtain ⟨s, n, hf, hl, hn, he⟩ := t
  simp only [civil, hday, truncated, ofParts?]
  -- The second shown is 60 exactly in a leap second, which follows the second 59.
  by_cases hleap : 1000000000 ≤ n
  · have hend := he hleap
    have hsixty : (s % 86400).toNat % 60 + n / 1000000000 = 60 := by omega
    have hparts : 86400 * (s / 86400) + 3600 * ((s % 86400).toNat / 3600 : Nat) +
        60 * ((s % 86400).toNat / 60 % 60 : Nat) + (59 : Nat) - 0 = s := by omega
    have hnanos : n % 1000000000 / 1000 * 1000 + 1000000000 = n - n % 1000 := by omega
    simp only [hsixty, if_true, hparts, hnanos]
    rw [dif_pos ⟨hf, hl, by omega, fun _ => hend⟩]
  · have hshort : (s % 86400).toNat % 60 + n / 1000000000 = (s % 86400).toNat % 60 := by omega
    have hne : ¬ (s % 86400).toNat % 60 = 60 := by omega
    have hparts : 86400 * (s / 86400) + 3600 * ((s % 86400).toNat / 3600 : Nat) +
        60 * ((s % 86400).toNat / 60 % 60 : Nat) + ((s % 86400).toNat % 60 : Nat) - 0 = s := by
      omega
    have hnanos : n % 1000000000 / 1000 * 1000 = n - n % 1000 := by omega
    simp only [hshort, hne, if_false, hparts, hnanos]
    rw [dif_pos ⟨hf, hl, by omega, fun _ => by omega⟩]

/-! ### Digits and fields -/

namespace Decimal

theorem natOfDigits_append (start : Nat) (a b : List Char) :
    natOfDigits start (a ++ b) = natOfDigits (natOfDigits start a) b :=
  List.foldl_append

theorem natOfDigits_replicate_zero (start k : Nat) :
    natOfDigits start (List.replicate k '0') = start * Nat.pow 10 k := by
  induction k generalizing start with
  | zero => exact (Nat.mul_one start).symm
  | succ k ih =>
    have hstep : natOfDigits start (List.replicate (k + 1) '0') =
        natOfDigits (10 * start) (List.replicate k '0') := rfl
    have hpow : Nat.pow 10 (k + 1) = Nat.pow 10 k * 10 := rfl
    rw [hstep, ih, hpow, Nat.mul_comm 10, Nat.mul_assoc, Nat.mul_comm 10]

theorem natOfDigits_toDigits (n : Nat) : natOfDigits 0 (Nat.toDigits 10 n) = n := by
  induction n using Nat.strongRecOn with
  | _ n ih =>
    rw [Nat.toDigits_eq_if (by decide)]
    split
    · next h =>
      have hd := Nat.toNat_digitChar_of_lt_ten h
      simp [natOfDigits, hd]
    · next h =>
      have hd := Nat.toNat_digitChar_of_lt_ten (Nat.mod_lt n (show 0 < 10 by decide))
      rw [natOfDigits_append, ih (n / 10) (by omega)]
      simp only [natOfDigits, List.foldl_cons, List.foldl_nil, hd]
      have hz : '0'.toNat = 48 := rfl
      omega

end Decimal

section Padding

variable {width n : Nat}

theorem length_padded (hw : 0 < width) (h : n < Nat.pow 10 width) :
    (padded width n).length = width := by
  have := (Nat.length_toDigits_le_iff (b := 10) (by decide) hw).mpr h
  rw [padded, List.length_append, List.length_replicate]
  omega

theorem all_isDigit_padded : (padded width n).all Char.isDigit = true := by
  rw [padded, List.all_append, Bool.and_eq_true]
  refine ⟨?_, ?_⟩
  · rw [List.all_replicate]
    split <;> rfl
  · rw [List.all_eq_true]
    exact fun c hc => Nat.isDigit_of_mem_toDigits (by decide) (by decide) hc

theorem natOfDigits_padded : Decimal.natOfDigits 0 (padded width n) = n := by
  rw [padded, Decimal.natOfDigits_append, Decimal.natOfDigits_replicate_zero, Nat.zero_mul,
    Decimal.natOfDigits_toDigits]

namespace Timestamp

/-- A padded number is read back by a field of its width. -/
theorem fixedNumber?_padded (hw : 0 < width) (h : n < Nat.pow 10 width) (rest : List Char) :
    fixedNumber? width (padded width n ++ rest) = some (n, rest) := by
  have hl := length_padded hw h
  rw [fixedNumber?, List.take_left' hl, List.drop_left' hl, hl, all_isDigit_padded]
  simp [natOfDigits_padded]

theorem fixedNumber?_padded_bind {α : Type} (hw : 0 < width) (h : n < Nat.pow 10 width)
    (rest : List Char) (next : Nat × List Char → Option α) :
    (fixedNumber? width (padded width n ++ rest) >>= next) = next (n, rest) := by
  rw [fixedNumber?_padded hw h]
  rfl

theorem char?_cons_bind {α : Type} (c : Char) (rest : List Char) (next : List Char → Option α) :
    (char? c (c :: rest) >>= next) = next rest := by
  rw [char?, if_pos rfl]
  rfl

/-- Of several characters that may stand in a place the first one is taken. -/
theorem char?_cons_or_bind {α : Type} (c : Char) (rest : List Char) (other : Option (List Char))
    (next : List Char → Option α) : ((char? c (c :: rest)).or other >>= next) = next rest := by
  rw [char?, if_pos rfl]
  rfl

/-- The six digits after the point of a written second are read as nanoseconds. -/
theorem fraction?_padded (h : n < 1000000) (rest : List Char) :
    fraction? ('.' :: (padded 6 n ++ 'Z' :: rest)) = some (n * 1000, 'Z' :: rest) := by
  have hl := length_padded (show 0 < 6 by decide) h
  have hd : ∀ c ∈ padded 6 n, c.isDigit = true := List.all_eq_true.mp all_isDigit_padded
  have htake : (padded 6 n ++ 'Z' :: rest).takeWhile Char.isDigit = padded 6 n := by
    rw [List.takeWhile_append_of_pos hd, List.takeWhile_cons_of_neg (by decide), List.append_nil]
  have hdrop : (padded 6 n ++ 'Z' :: rest).dropWhile Char.isDigit = 'Z' :: rest := by
    rw [List.dropWhile_append_of_pos hd, List.dropWhile_cons_of_neg (by decide)]
  have hne : (padded 6 n).isEmpty = false := by
    rw [List.isEmpty_eq_false_iff, ← List.length_pos_iff, hl]
    decide
  have hnanos : nanosOfDigits (padded 6 n) = n * 1000 := by
    rw [nanosOfDigits, List.take_of_length_le (by omega), hl, Decimal.natOfDigits_append,
      natOfDigits_padded]
    exact Decimal.natOfDigits_replicate_zero n 3
  simp only [fraction?, htake, hdrop, hne, hnanos, Bool.false_eq_true, if_false]

end Timestamp

end Padding

namespace Text

theorem trimEnd_append_singleton (cs : List Char) {c : Char} (h : isBlank c = false) :
    trimEnd (cs ++ [c]) = cs ++ [c] := by
  induction cs with
  | nil => simp [trimEnd, h]
  | cons d ds ih =>
    rw [List.cons_append, trimEnd, ih]
    cases ds <;> rfl

/-- Text that begins and ends with characters other than blanks stays as it is. -/
theorem trim_eq_self (first last : Char) (cs : List Char) (hf : isBlank first = false)
    (hl : isBlank last = false) : trim (first :: (cs ++ [last])) = first :: (cs ++ [last]) := by
  rw [trim, trimStart, List.dropWhile_cons_of_neg (by simp [hf])]
  exact trimEnd_append_singleton (first :: cs) hl

theorem isBlank_of_isDigit {c : Char} (h : c.isDigit = true) : isBlank c = false := by
  have hn : 48 ≤ c.toNat ∧ c.toNat ≤ 57 := by
    rw [Char.isDigit, Bool.and_eq_true, decide_eq_true_eq, decide_eq_true_eq] at h
    exact h
  simp only [isBlank, Bool.or_eq_false_iff, Bool.and_eq_false_iff, decide_eq_false_iff_not,
    beq_eq_false_iff_ne]
  omega

end Text

/-! ### Whole timestamps -/

namespace Timestamp

/-- The characters of a timestamp in universal time, field by field. -/
def ofFields (year month day hour minute second micros : Nat) : List Char :=
  padded 4 year ++ '-' :: (padded 2 month ++ '-' :: (padded 2 day ++ 'T' :: (padded 2 hour ++
    ':' :: (padded 2 minute ++ ':' :: (padded 2 second ++ '.' :: (padded 6 micros ++ ['Z']))))))

/-- The strict form reads back the fields of a timestamp. -/
theorem strict?_ofFields {year month day hour minute second micros : Nat}
    (hy : year < 10000) (hm : month < 100) (hd : day < 100) (hh : hour < 100)
    (hmin : minute < 100) (hs : second < 100) (hu : micros < 1000000) :
    strict? (ofFields year month day hour minute second micros) =
      Civil.instant? { date := { year, month, day }, hour, minute, second,
                       nanos := micros * 1000 } 0 := by
  rw [strict?, ofFields]
  refine (fixedNumber?_padded_bind (by decide) hy _ _).trans ((char?_cons_bind _ _ _).trans ?_)
  refine (fixedNumber?_padded_bind (by decide) hm _ _).trans ((char?_cons_bind _ _ _).trans ?_)
  refine (fixedNumber?_padded_bind (by decide) hd _ _).trans ((char?_cons_or_bind _ _ _ _).trans ?_)
  refine (fixedNumber?_padded_bind (by decide) hh _ _).trans ((char?_cons_bind _ _ _).trans ?_)
  refine (fixedNumber?_padded_bind (by decide) hmin _ _).trans ((char?_cons_bind _ _ _).trans ?_)
  refine (fixedNumber?_padded_bind (by decide) hs _ _).trans ?_
  exact (congrArg (· >>= _) (fraction?_padded hu [])).trans rfl

/-- There are no blanks around a timestamp. -/
theorem trim_ofFields {year month day hour minute second micros : Nat} (hy : year < 10000) :
    Text.trim (ofFields year month day hour minute second micros) =
      ofFields year month day hour minute second micros := by
  have hl := length_padded (by decide : 0 < 4) hy
  have hd : ∀ c ∈ padded 4 year, c.isDigit = true := List.all_eq_true.mp all_isDigit_padded
  unfold ofFields
  cases hp : padded 4 year with
  | nil => simp [hp] at hl
  | cons first rest =>
    rw [hp] at hd
    have hf := Text.isBlank_of_isDigit (hd first List.mem_cons_self)
    have h := Text.trim_eq_self first 'Z' (rest ++ '-' :: (padded 2 month ++ '-' :: (padded 2 day ++
      'T' :: (padded 2 hour ++ ':' :: (padded 2 minute ++ ':' :: (padded 2 second ++ '.' ::
        padded 6 micros)))))) hf (by decide)
    simpa only [List.cons_append, List.append_assoc] using h

end Timestamp

namespace Instant

/-- Whether the year of an instant is written with four digits and no sign. -/
def HasPlainYear (t : Instant) : Prop := 0 ≤ t.civil.date.year ∧ t.civil.date.year ≤ 9999

instance (t : Instant) : Decidable t.HasPlainYear := inferInstanceAs (Decidable (_ ∧ _))

theorem format_eq_ofFields {t : Instant} (h : t.HasPlainYear) :
    t.format = String.ofList (Timestamp.ofFields t.civil.date.year.toNat t.civil.date.month
      t.civil.date.day t.civil.hour t.civil.minute t.civil.second (t.civil.nanos / 1000)) := by
  have hy : yearText t.civil.date.year = padded 4 t.civil.date.year.toNat := if_pos h
  simp only [format, hy, Timestamp.ofFields, List.append_assoc, List.cons_append]

/-- The timestamp of an instant is read as the instant cut off at the microsecond. -/
theorem ofText?_format {t : Instant} (h : t.HasPlainYear) :
    ofText? t.format = some t.truncated := by
  have hvalid := isValid_civil t
  simp only [Civil.isValid, Calendar.Date.isValid, Bool.and_eq_true, decide_eq_true_eq] at hvalid
  obtain ⟨⟨⟨⟨⟨⟨⟨-, hm⟩, -⟩, hd⟩, hh⟩, hmin⟩, hs⟩, hn⟩ := hvalid
  have hlen := Calendar.monthLength_le t.civil.date.year t.civil.date.month
  have hy : t.civil.date.year.toNat < 10000 := by
    have := h.2
    omega
  have hcast : (t.civil.date.year.toNat : Int) = t.civil.date.year := Int.toNat_of_nonneg h.1
  have hstrict := Timestamp.strict?_ofFields hy
    (show t.civil.date.month < 100 by omega) (show t.civil.date.day < 100 by omega)
    (show t.civil.hour < 100 by omega) (show t.civil.minute < 100 by omega)
    (show t.civil.second < 100 by omega) (show t.civil.nanos / 1000 < 1000000 by omega)
  rw [hcast] at hstrict
  rw [format_eq_ofFields h, ofText?, String.toList_ofList, Timestamp.trim_ofFields hy, hstrict]
  exact congrArg (Option.or · _) (instant?_civil t)

end Instant

end TriggerWatch
