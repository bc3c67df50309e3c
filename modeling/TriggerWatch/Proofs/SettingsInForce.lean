import TriggerWatch.Proofs.LongYears
import TriggerWatch.Proofs.Readings
import TriggerWatch.Proofs.Spacing
import TriggerWatch.Settings.Environment

/-!
# Settings in force

The retention time and the floor of the waits are numbers of seconds of 64 bits. An evaluator takes
them as signed numbers and makes spans of them. Up to the longest span both are in force as they
were set. A larger number leads to no evaluator at all, or past the sign to a negative span: a
negative retention time leaves nothing in a history, and a negative floor makes no trigger wait.

## Main definitions

- `Settings.Evaluation.IsInRange` — the numbers of seconds fit into spans
- `Instant.IsOlder`, `Instant.IsPast` — more than, and at least, some seconds ago
- `Evaluator.Honours` — an evaluator keeps readings and spaces fires as set
- `Evaluator.Forgets`, `Evaluator.HasNoFloor` — what negative spans lead to

## Main statements

- `Settings.seconds_le` — the numbers of seconds in accepted settings have at most 64 bits
- `Instant.IsOlder.toNanos_lt`, `Instant.IsPast.toNanos_le` — the distance off leap seconds
- `Evaluator.honours` — an evaluator with the spans that were set honours them
- `Evaluator.settings_in_force` — which accepted settings are in force
-/

namespace TriggerWatch

/-! ### Numbers of seconds -/

theorem Span.maxSeconds_eq : maxSeconds = 9223372036854775 := by decide

/-- Up to the longest span a number of seconds is taken as it is. -/
theorem Span.ofSeconds?_toSigned64 {n : Nat} (h : n ≤ maxSeconds) :
    ofSeconds? (toSigned64 n) = some (ofSeconds n) := by
  rw [maxSeconds_eq] at h
  rw [Evaluator.toSigned64_of_lt (by omega), ofSeconds?, maxSeconds_eq]
  exact if_pos ⟨by omega, h⟩

/-- Past the longest span a number of 64 bits gives a negative span if any. -/
theorem Span.exists_of_maxSeconds_lt {n : Nat} {d : Span} (hn : n ≤ 0xffffffffffffffff)
    (h : ¬ n ≤ maxSeconds) (hd : ofSeconds? (toSigned64 n) = some d) :
    ∃ k < 0, d = ofSeconds k := by
  rw [maxSeconds_eq] at h
  rw [ofSeconds?, maxSeconds_eq] at hd
  split at hd
  · next hr =>
    refine ⟨toSigned64 n, ?_, (Option.some.inj hd).symm⟩
    by_cases hlow : n < 0x8000000000000000
    · rw [Evaluator.toSigned64_of_lt hlow] at hr
      omega
    · have hmod : n % 0x10000000000000000 = n := Nat.mod_eq_of_lt (by omega)
      unfold toSigned64
      rw [hmod]
      simp only [if_neg (show ¬ (n : Int) < 0x8000000000000000 by omega)]
      omega
  · cases hd

namespace Settings

theorem readDigits_le {limit n m : Nat} {cs : List Char} (hm : m ≤ limit)
    (h : readDigits limit cs m = .ok n) : n ≤ limit := by
  induction cs generalizing m with
  | nil =>
    cases h
    exact hm
  | cons c rest ih =>
    rw [readDigits] at h
    split at h
    · cases h
    · simp only at h
      split at h
      · cases h
      · next hnext => exact ih (Nat.le_of_not_lt hnext) h

theorem readNumber_le {limit n : Nat} {cs : List Char} (h : readNumber limit cs = .ok n) :
    n ≤ limit := by
  unfold readNumber at h
  split at h
  · cases h
  · cases h
  · exact readDigits_le (Nat.zero_le limit) h
  · exact readDigits_le (Nat.zero_le limit) h

/-- A number of at most 64 bits is one. -/
theorem numberOr64_le {env : Environment} {variableName : String} {default n : Nat}
    (hd : default ≤ 0xffffffffffffffff) (h : numberOr64 env variableName default = .ok n) :
    n ≤ 0xffffffffffffffff := by
  rw [numberOr64, valueOr] at h
  split at h
  · cases h
    exact hd
  · split at h
    · next hread =>
      cases h
      exact readNumber_le hread
    · cases h

theorem bind_eq_ok {ε α β : Type} {a : Except ε α} {f : α → Except ε β} {y : β}
    (h : (a >>= f) = .ok y) : ∃ x, a = .ok x ∧ f x = .ok y := by
  cases a with
  | error e => cases h
  | ok x => exact ⟨x, rfl, h⟩

/-- The numbers of seconds in accepted settings have at most 64 bits. -/
theorem seconds_le {env : Environment} {settings : Settings}
    (h : ofEnvironment env = .ok settings) :
    settings.evaluation.retention ≤ 0xffffffffffffffff ∧
      settings.evaluation.minCooldown ≤ 0xffffffffffffffff := by
  obtain ⟨stateStore, -, h⟩ := bind_eq_ok h
  obtain ⟨port, -, h⟩ := bind_eq_ok h
  obtain ⟨evaluation, heval, h⟩ := bind_eq_ok h
  obtain ⟨notices, -, h⟩ := bind_eq_ok h
  obtain ⟨intake, -, h⟩ := bind_eq_ok h
  cases h
  obtain ⟨retention, hretention, heval⟩ := bind_eq_ok heval
  obtain ⟨minCooldown, hfloor, heval⟩ := bind_eq_ok heval
  obtain ⟨trailCapacity, -, heval⟩ := bind_eq_ok heval
  obtain ⟨storeTimeout, -, heval⟩ := bind_eq_ok heval
  obtain ⟨inTurn, -, heval⟩ := bind_eq_ok heval
  obtain ⟨beacons, -, heval⟩ := bind_eq_ok heval
  cases heval
  exact ⟨numberOr64_le (by decide) hretention, numberOr64_le (by decide) hfloor⟩

/-- The numbers of seconds fit into spans. -/
def Evaluation.IsInRange (settings : Evaluation) : Prop :=
  settings.retention ≤ Span.maxSeconds ∧ settings.minCooldown ≤ Span.maxSeconds

instance (settings : Evaluation) : Decidable settings.IsInRange :=
  inferInstanceAs (Decidable (_ ∧ _))

end Settings

/-! ### Instants some seconds apart -/

namespace Instant

/-- An instant lies more than some seconds before another. -/
def IsOlder (seconds : Nat) (t now : Instant) : Prop :=
  ∃ horizon, now.sub? (Span.ofSeconds seconds) = some horizon ∧ t < horizon

/-- An instant lies at least some seconds before another. -/
def IsPast (seconds : Nat) (t now : Instant) : Prop :=
  ∃ ready, t.add? (Span.ofSeconds seconds) = some ready ∧ ready ≤ now

variable {t now : Instant} {seconds : Nat}

/-- Off leap seconds the distance tells what is older. -/
theorem IsOlder.toNanos_lt (h : t.IsOlder seconds now) (ht : ¬ t.isLeap) (hnow : ¬ now.isLeap) :
    t.toNanos + seconds * 1000000000 < now.toNanos := by
  obtain ⟨horizon, hh, hlt⟩ := h
  obtain ⟨hleap, hsum⟩ := (add?_eq_some_iff _ hnow).mp hh
  rw [lt_iff_toNanos_lt ht hleap, hsum, Span.nanos_neg, Span.ofSeconds] at hlt
  simp only at hlt
  omega

/-- Off leap seconds the distance tells what is past. -/
theorem IsPast.toNanos_le (h : t.IsPast seconds now) (ht : ¬ t.isLeap) (hnow : ¬ now.isLeap) :
    t.toNanos + seconds * 1000000000 ≤ now.toNanos := by
  obtain ⟨ready, hr, hle⟩ := h
  obtain ⟨hleap, hsum⟩ := (add?_eq_some_iff _ ht).mp hr
  rw [le_iff_toNanos_le hleap hnow, hsum, Span.ofSeconds] at hle
  exact hle

theorem exists_ofNanos?_of_le {n n' : Int} {u : Instant} (hf : firstSecond * 1000000000 ≤ n)
    (hn : n ≤ n') (h : ofNanos? n' = some u) : ∃ u', ofNanos? n = some u' ∧ u' ≤ u := by
  have hu := toNanos_of_ofNanos? h
  have hleap := not_isLeap_of_ofNanos? h
  cases hs : ofNanos? n with
  | none =>
    have hlast := u.le_last
    rw [ofNanos?_eq_none_iff] at hs
    simp only [toNanos, isLeap] at hu hleap
    omega
  | some u' =>
    refine ⟨u', rfl, ?_⟩
    rw [le_iff_toNanos_le (not_isLeap_of_ofNanos? hs) hleap, toNanos_of_ofNanos? hs, hu]
    exact hn

/-- A shorter move forward stays in the calendar and does not end later. -/
theorem exists_add? {u : Instant} {d d' : Span} (hd : 0 ≤ d.nanos) (hdd : d.nanos ≤ d'.nanos)
    (h : t.add? d' = some u) : ∃ u', t.add? d = some u' ∧ u' ≤ u := by
  have hfirst := t.first_le
  by_cases hl : t.isLeap
  · have hl' : 1000000000 ≤ t.nanos := hl
    rw [add?, if_neg (not_not_intro hl)] at h ⊢
    by_cases hout : 2000000000 ≤ t.nanos + d.nanos
    · rw [if_pos hout]
      rw [if_pos (by omega)] at h
      exact exists_ofNanos?_of_le (by simp only [toNanos]; omega) (by omega) h
    · -- the shorter move stays in the leap second, which the longer one may leave
      rw [if_neg hout, if_neg (by omega), ofParts?,
        dif_pos ⟨t.first_le, t.le_last, by omega, fun _ => t.leap_at_end hl⟩]
      refine ⟨_, rfl, ?_⟩
      rw [le_iff]
      by_cases hout' : 2000000000 ≤ t.nanos + d'.nanos
      · rw [if_pos hout'] at h
        have hu := toNanos_of_ofNanos? h
        have hleap := not_isLeap_of_ofNanos? h
        simp only [toNanos, isLeap] at hu hleap ⊢
        omega
      · rw [if_neg hout', if_neg (by omega), ofParts?,
          dif_pos ⟨t.first_le, t.le_last, by omega, fun _ => t.leap_at_end hl⟩] at h
        cases h
        exact .inr ⟨rfl, Int.toNat_le_toNat (by omega)⟩
  · rw [add?, if_pos hl] at h ⊢
    exact exists_ofNanos?_of_le (by simp only [toNanos]; omega) (by omega) h

/-- Some seconds after an instant it is later. -/
theorem lt_of_sub?_ofSeconds {horizon : Instant} {n : Int} (hn : n < 0)
    (h : now.sub? (Span.ofSeconds n) = some horizon) : now < horizon := by
  have hlong : 1000000000 ≤ (-Span.ofSeconds n).nanos := by
    rw [Span.nanos_neg, Span.ofSeconds]
    simp only
    omega
  exact .inl (seconds_lt_of_add? hlong h)

end Instant

/-! ### Completed calls -/

variable {σ : Type}

/-- What a completed call that adds a reading has read, and what it leaves. -/
theorem History.exists_of_ingest {docs : Documents σ} {retention : Span} {device : String}
    {reading : Reading} {now : Instant} {s t : Session σ} {kept : List Json}
    (h : (ingest docs retention device reading now).onSession s = (.ok kept, t)) :
    ∃ records s' horizon, (load docs device).onSession s = (.ok records, s') ∧
      now.sub? retention = some horizon ∧
      kept = keepRecent horizon (records ++ [reading.toJson]) ∧
      (save docs device kept).onSession s' = (.ok (), t) := by
  obtain ⟨records, s', hload, h⟩ := Action.exists_of_onSession_bind h
  cases hsub : now.sub? retention with
  | none =>
    rw [hsub] at h
    cases h
  | some horizon =>
    rw [hsub] at h
    obtain ⟨_, _, hhorizon, h⟩ := Action.exists_of_onSession_bind h
    cases hhorizon
    obtain ⟨_, _, hsave, hkept⟩ := Action.exists_of_onSession_bind h
    cases hkept
    exact ⟨records, s', horizon, hload, rfl, rfl, hsave⟩

/-- What a completed check has read where it lets a trigger pass. -/
theorem Cooldown.exists_of_suppresses {docs : Documents σ} {floor period : Span}
    {device trigger : String} {now : Instant} {s t : Session σ}
    (h : (suppresses docs floor device trigger period now).onSession s = (.ok false, t)) :
    ∃ last? s', (lastFire docs device trigger).onSession s = (.ok last?, s') ∧
      ∀ last ∈ last?, isCooling (max period floor) last now = false := by
  obtain ⟨last?, s', hlast, h⟩ := Action.exists_of_onSession_bind h
  refine ⟨last?, s', hlast, ?_⟩
  rintro last rfl
  rw [Bool.eq_false_iff]
  intro hcooling
  rw [Option.any_some, if_pos hcooling] at h
  cases h

/-- The time of a written reading is what is read from its timestamp. -/
theorem History.timestamp?_toJson_eq_ofText? (r : Reading) :
    timestamp? r.toJson = Instant.ofText? r.timestamp.format := by
  rw [Reading.toJson_eq, timestamp?]
  simp only [Json.get?, Dict.get?_cons, String.reduceEq, if_false, if_true, Option.bind_some,
    Json.string?]

/-- A horizon after the time of a reading removes it, whether its timestamp is readable or not. -/
theorem History.not_mem_keepRecent {reading : Reading} {horizon : Instant}
    (h : reading.timestamp < horizon) (records : List Json) :
    reading.toJson ∉ keepRecent horizon records := by
  intro hmem
  have hrecent := (List.mem_filter.mp hmem).2
  rw [isRecent, timestamp?_toJson_eq_ofText?] at hrecent
  by_cases hy : reading.timestamp.HasPlainYear
  · rw [Instant.ofText?_format hy] at hrecent
    have hle := of_decide_eq_true hrecent
    rw [Instant.le_iff] at hle
    rw [Instant.lt_iff] at h
    simp only [Instant.truncated] at hle
    omega
  · rw [Instant.ofText?_format_eq_none hy] at hrecent
    cases hrecent

/-! ### What an evaluator makes of its settings -/

namespace Evaluator

/-- An evaluator keeps readings and spaces fires as set. A completed call drops a record with a
readable timestamp only if that is older than the retention time, and a completed check lets a
trigger pass only if the floor is past since its last fire. -/
structure Honours (e : Evaluator σ) (settings : Settings.Evaluation) : Prop where
  keeps : ∀ device reading now s t kept,
    (History.ingest e.documents e.retention device reading now).onSession s = (.ok kept, t) →
    ∃ records s', (History.load e.documents device).onSession s = (.ok records, s') ∧
      (History.save e.documents device kept).onSession s' = (.ok (), t) ∧
      ∀ record ∈ records ++ [reading.toJson], record ∉ kept →
        ∀ time ∈ History.timestamp? record, time.IsOlder settings.retention now
  spaces : ∀ device trigger period now s t,
    (Cooldown.suppresses e.documents e.minCooldown device trigger period now).onSession s =
      (.ok false, t) →
    ∃ last? s', (Cooldown.lastFire e.documents device trigger).onSession s = (.ok last?, s') ∧
      ∀ last ∈ last?, last.IsPast settings.minCooldown now

variable {e : Evaluator σ} {settings : Settings.Evaluation}

/-- An evaluator with the spans that were set honours them. -/
theorem honours (hretention : e.retention = Span.ofSeconds settings.retention)
    (hfloor : e.minCooldown = Span.ofSeconds settings.minCooldown) : e.Honours settings where
  keeps := by
    intro device reading now s t kept h
    rw [hretention] at h
    obtain ⟨records, s', horizon, hload, hhorizon, hkept, hsave⟩ := History.exists_of_ingest h
    refine ⟨records, s', hload, hsave, ?_⟩
    intro record hmem hdropped time htime
    refine ⟨horizon, hhorizon, ?_⟩
    have hold : History.isRecent horizon record = false := by
      rw [Bool.eq_false_iff]
      intro hrecent
      exact hdropped (hkept ▸ List.mem_filter.mpr ⟨hmem, hrecent⟩)
    rw [History.isRecent, htime] at hold
    exact Decidable.not_not.mp (of_decide_eq_false hold)
  spaces := by
    intro device trigger period now s t h
    obtain ⟨last?, s', hlast, hfree⟩ := Cooldown.exists_of_suppresses h
    refine ⟨last?, s', hlast, ?_⟩
    intro last hl
    obtain ⟨ready, hready, hle⟩ := (Cooldown.isCooling_eq_false_iff _ _ _).mp (hfree last hl)
    have hnonneg : 0 ≤ (Span.ofSeconds settings.minCooldown).nanos := by
      rw [Span.ofSeconds]
      simp only
      omega
    have hlonger : (Span.ofSeconds settings.minCooldown).nanos ≤
        (max period e.minCooldown).nanos := by
      rw [Span.nanos_max, hfloor]
      exact Int.le_max_right _ _
    obtain ⟨ready', hready', hle'⟩ := Instant.exists_add? hnonneg hlonger hready
    exact ⟨ready', hready', Instant.le_trans hle' hle⟩

/-- An evaluator drops what joins a history at its own time. -/
def Forgets (e : Evaluator σ) : Prop :=
  ∀ device reading now s t kept, reading.timestamp = now →
    (History.ingest e.documents e.retention device reading now).onSession s = (.ok kept, t) →
    reading.toJson ∉ kept

/-- No wait of an evaluator is made longer by its floor. -/
def HasNoFloor (e : Evaluator σ) : Prop :=
  ∀ period : Span, 0 ≤ period.nanos → max period e.minCooldown = period

theorem forgets {n : Int} (hn : n < 0) (h : e.retention = Span.ofSeconds n) : e.Forgets := by
  intro device reading now s t kept htime hran
  rw [h] at hran
  obtain ⟨records, s', horizon, -, hhorizon, hkept, -⟩ := History.exists_of_ingest hran
  rw [hkept]
  refine History.not_mem_keepRecent ?_ _
  rw [htime]
  exact Instant.lt_of_sub?_ofSeconds hn hhorizon

theorem hasNoFloor {n : Int} (hn : n < 0) (h : e.minCooldown = Span.ofSeconds n) :
    e.HasNoFloor := by
  intro period hperiod
  rw [h]
  refine if_neg ?_
  rw [Span.le_iff, Span.ofSeconds]
  simp only
  omega

variable (documents : Documents σ) (shadows : Shadows σ) (notifier : Notifier σ)

theorem exists_of_ofSettings? {settings : Settings.Evaluation}
    (h : ofSettings? documents shadows notifier settings = some e) :
    Span.ofSeconds? (toSigned64 settings.retention) = some e.retention ∧
      Span.ofSeconds? (toSigned64 settings.minCooldown) = some e.minCooldown := by
  simp only [ofSettings?, Option.bind_eq_bind, Option.bind_eq_some_iff] at h
  obtain ⟨retention, hretention, minCooldown, hfloor, h⟩ := h
  cases h
  exact ⟨hretention, hfloor⟩

/-- Of settings in range an evaluator is made, and it honours them. -/
theorem exists_honours (h : settings.IsInRange) :
    ∃ e, ofSettings? documents shadows notifier settings = some e ∧ e.Honours settings := by
  have hretention := Span.ofSeconds?_toSigned64 h.1
  have hfloor := Span.ofSeconds?_toSigned64 h.2
  simp only [ofSettings?, hretention, hfloor, Option.bind_eq_bind, Option.bind_some]
  refine ⟨_, rfl, honours ?_ ?_⟩
  · rfl
  · rfl

/-- Accepted settings in range are in force in the evaluator made of them. Of settings out of range
no evaluator is made, or one that drops every reading it adds, or one without a floor. -/
theorem settings_in_force {env : Settings.Environment} {settings : Settings}
    (h : Settings.ofEnvironment env = .ok settings) :
    (settings.evaluation.IsInRange →
      ∃ e, ofSettings? documents shadows notifier settings.evaluation = some e ∧
        e.Honours settings.evaluation) ∧
    (¬ settings.evaluation.IsInRange →
      ∀ e, ofSettings? documents shadows notifier settings.evaluation = some e →
        e.Forgets ∨ e.HasNoFloor) := by
  obtain ⟨hretention, hfloor⟩ := Settings.seconds_le h
  refine ⟨exists_honours documents shadows notifier, ?_⟩
  intro hout e he
  obtain ⟨hkeep, hwait⟩ := exists_of_ofSettings? documents shadows notifier he
  by_cases hr : settings.evaluation.retention ≤ Span.maxSeconds
  · have hlong : ¬ settings.evaluation.minCooldown ≤ Span.maxSeconds := fun hf => hout ⟨hr, hf⟩
    obtain ⟨k, hk, hspan⟩ := Span.exists_of_maxSeconds_lt hfloor hlong hwait
    exact .inr (hasNoFloor hk hspan)
  · obtain ⟨k, hk, hspan⟩ := Span.exists_of_maxSeconds_lt hretention hr hkeep
    exact .inl (forgets hk hspan)

/-- A retention time of ten minutes and a floor of 45 seconds are in force. -/
theorem settings_in_force_of_minutes :
    ∃ settings e, Settings.ofEnvironment [("EVENT_RETENTION_SECS", "600"),
        ("MIN_DEBOUNCE_SECS", " +45 "), ("STATE_STORE_BACKEND", "redis")] = .ok settings ∧
      settings.evaluation.retention = 600 ∧ settings.evaluation.minCooldown = 45 ∧
      ofSettings? Memory.documentStore Memory.shadowStore Memory.notifier settings.evaluation =
        some e ∧
      e.Honours settings.evaluation := by
  obtain ⟨settings, hread, hretention, hfloor⟩ : ∃ settings : Settings,
      Settings.ofEnvironment [("EVENT_RETENTION_SECS", "600"), ("MIN_DEBOUNCE_SECS", " +45 "),
        ("STATE_STORE_BACKEND", "redis")] = .ok settings ∧
      settings.evaluation.retention = 600 ∧ settings.evaluation.minCooldown = 45 :=
    ⟨_, rfl, rfl, rfl⟩
  have hin : settings.evaluation.IsInRange := by
    rw [Settings.Evaluation.IsInRange, hretention, hfloor]
    decide
  obtain ⟨e, he, hhonours⟩ :=
    (settings_in_force Memory.documentStore Memory.shadowStore Memory.notifier hread).1 hin
  exact ⟨settings, e, hread, hretention, hfloor, he, hhonours⟩

/-- The evaluator of the longest retention time that is accepted. -/
def endless : Evaluator Memory :=
  (inMemory? .apart { Settings.Evaluation.default with retention := 0xffffffffffffffff }).get
    (by decide +kernel)

/-- The longest retention time that is accepted makes an evaluator drop a reading at its own time,
and half as long a floor leads to no evaluator. -/
theorem not_honours_of_longest :
    (∃ settings, Settings.ofEnvironment [("EVENT_RETENTION_SECS", "18446744073709551615"),
        ("STATE_STORE_BACKEND", "redis")] = .ok settings ∧
      inMemory? .apart settings.evaluation = some endless ∧
      ¬ endless.Honours settings.evaluation) ∧
    ∃ settings, Settings.ofEnvironment [("MIN_DEBOUNCE_SECS", "9223372036854775807"),
        ("STATE_STORE_BACKEND", "redis")] = .ok settings ∧
      (inMemory? .apart settings.evaluation).isNone := by
  refine ⟨⟨_, rfl, (Option.some_get _).symm, ?_⟩, ⟨_, rfl, by decide +kernel⟩⟩
  intro h
  let reading : Reading :=
    ⟨"boiler", "level", .text "3", (Instant.ofText? "2024-05-01T10:00:00Z").getD .earliest⟩
  let run := (History.ingest endless.documents endless.retention "boiler" reading
    reading.timestamp).onSession (.fresh fun _ => none)
  have hcompleted : run.1.isOk = true := by decide +kernel
  rcases hran : run with ⟨stop | kept, t⟩
  · rw [hran] at hcompleted
    cases hcompleted
  · have hretention : endless.retention = Span.ofSeconds (-1) := by decide +kernel
    have hdropped : reading.toJson ∉ kept := forgets (by decide) hretention _ _ _ _ _ _ rfl hran
    obtain ⟨records, s', -, -, hold⟩ := h.keeps _ _ _ _ _ _ hran
    have htime : History.timestamp? reading.toJson = some reading.timestamp := by decide +kernel
    obtain ⟨horizon, hhorizon, -⟩ := hold reading.toJson (by simp) hdropped _ htime
    have hnone : reading.timestamp.sub? (Span.ofSeconds 0xffffffffffffffff) = none := by
      decide +kernel
    cases hnone.symm.trans hhorizon

end Evaluator

end TriggerWatch
