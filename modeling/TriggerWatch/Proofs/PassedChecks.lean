import TriggerWatch.Proofs.Cells
import TriggerWatch.Proofs.Keys
import TriggerWatch.Proofs.Spacing
import TriggerWatch.Proofs.StringLiterals

/-!
# Which checks of a trigger are passed

The checks of a trigger, in any order of their times and between those of other triggers, are passed
one by one: the first of them, and each one that finds the wait after the latest passed one over.
The only memory of this is a document for each trigger, which holds the time of the latest passed
check as a text. A check that is not passed leaves it alone.

## Main definitions

- `Cooldown.Call`, `Cooldown.Answer` — checks of triggers, questions for last fires, and answers
- `Cooldown.latestPass` — the time of the latest passed check of a trigger
- `Cooldown.IsGreedy` — answers that let pass what the latest passed check allows

## Main statements

- `Cooldown.answerAfter_of_transcript` — what a call answers after others
- `Cooldown.isGreedy_of_follows` — what follows from these answers alone
- `Cooldown.checks_greedy` — the answers of both document stores
-/

namespace TriggerWatch

namespace Instant

/-- An instant that is cut off at the microsecond stays below what it was below. -/
theorem truncated_le_truncated {t u : Instant} (h : t.truncated ≤ u) :
    t.truncated ≤ u.truncated := by
  rw [le_iff] at h ⊢
  simp only [truncated] at h ⊢
  omega

end Instant

namespace Cooldown

/-- A call on the records of fires. -/
inductive Call where
  | check (device trigger : String) (period : Span) (now : Instant)
  /-- Ask for the last fire. -/
  | ask (device trigger : String)

inductive Answer where
  | suppressed (held : Bool)
  | fired (last : Option Instant)
deriving DecidableEq

/-- Calls with their answers. -/
abbrev Log := List (Call × Except (Stop StoreFailure) Answer)

namespace Call

variable {σ : Type}

def perform (docs : Documents σ) (floor : Span) : Call → Action σ StoreFailure Answer
  | .check device trigger period now =>
    return .suppressed (← suppresses docs floor device trigger period now)
  | .ask device trigger => return .fired (← lastFire docs device trigger)

def device : Call → String
  | .check device _ _ _ => device
  | .ask device _ => device

def trigger : Call → String
  | .check _ trigger _ _ => trigger
  | .ask _ trigger => trigger

def key (call : Call) : String := Key.cooldown call.device call.trigger

def concerns (device trigger : String) (call : Call) : Bool :=
  call.device = device ∧ call.trigger = trigger

/-- The device has no separator in its name, and the time of a check is written without a sign and
lies in no leap second. -/
def IsPlain : Call → Prop
  | .check device _ _ now => Key.hasSeparator device = false ∧ now.HasPlainYear ∧ ¬ now.isLeap
  | .ask device _ => Key.hasSeparator device = false

instance : ∀ call : Call, Decidable call.IsPlain
  | .check _ _ _ _ => inferInstanceAs (Decidable (_ ∧ _))
  | .ask _ _ => inferInstanceAs (Decidable (_ = _))

theorem IsPlain.not_hasSeparator {call : Call} (h : call.IsPlain) :
    Key.hasSeparator call.device = false := by
  cases call with
  | check device trigger period now => exact h.1
  | ask device trigger => exact h

end Call

/-- The time of a passed check of a trigger, as it is kept. -/
def passOf? (device trigger : String) : Call × Except (Stop StoreFailure) Answer → Option Instant
  | (.check device' trigger' _ now, .ok (.suppressed false)) =>
    if device' = device ∧ trigger' = trigger then some now.truncated else none
  | _ => none

/-- The time of the latest passed check of a trigger. -/
def latestPass (log : Log) (device trigger : String) : Option Instant :=
  log.reverse.findSome? (passOf? device trigger)

/-- What a call answers after others. -/
def Call.answerAfter (floor : Span) (log : Log) : Call → Answer
  | .check device trigger period now =>
    .suppressed ((latestPass log device trigger).any fun last =>
      isCooling (max period floor) last now)
  | .ask device trigger => .fired (latestPass log device trigger)

/-- The answers let pass what the latest passed check of the trigger allows. -/
structure IsGreedy (floor : Span) (log : Log) : Prop where
  /-- A check is passed if it is the first one of its trigger or the wait after the latest passed
  one is over. -/
  passes : ∀ {earlier later device trigger period now answer},
    log = earlier ++ (.check device trigger period now, answer) :: later →
    ∃ held, answer = .ok (.suppressed held) ∧ (held = false ↔
      ∀ last, latestPass earlier device trigger = some last →
        ∃ ready : Instant, ¬ ready.isLeap ∧
          ready.toNanos = last.toNanos + max period.nanos floor.nanos ∧ ready ≤ now)
  /-- The last fire is the latest passed check. -/
  fires : ∀ {earlier later device trigger answer},
    log = earlier ++ (.ask device trigger, answer) :: later →
    answer = .ok (.fired (latestPass earlier device trigger))
  /-- It never moves back. -/
  forward : ∀ {earlier later device trigger last}, log = earlier ++ later →
    latestPass earlier device trigger = some last →
    ∃ last', latestPass log device trigger = some last' ∧ last ≤ last'
  /-- When a check comes, a check of its trigger is passed at the latest now if all of them before
  some point are as long ago as the wait. -/
  opens : ∀ {before between later device trigger period now answer},
    log = before ++ (between ++ (.check device trigger period now, answer) :: later) →
    (∀ period₀ now₀ answer₀, (.check device trigger period₀ now₀, answer₀) ∈ before →
      now₀.toNanos + max period.nanos floor.nanos ≤ now.toNanos) →
    ∃ entry ∈ between ++ [(.check device trigger period now, answer)],
      (passOf? device trigger entry).isSome

/-! ### The latest passed check -/

section Latest

variable {device trigger : String} {last : Instant}

theorem latestPass_append (log more : Log) (device trigger : String) :
    latestPass (log ++ more) device trigger =
      (latestPass more device trigger).or (latestPass log device trigger) := by
  rw [latestPass, List.reverse_append, List.findSome?_append]
  rfl

theorem latestPass_concat (log : Log) (entry : Call × Except (Stop StoreFailure) Answer)
    (device trigger : String) :
    latestPass (log ++ [entry]) device trigger =
      (passOf? device trigger entry).or (latestPass log device trigger) := by
  rw [latestPass_append, latestPass, List.reverse_singleton, List.findSome?_singleton]

theorem exists_check_of_passOf? {entry : Call × Except (Stop StoreFailure) Answer}
    (h : passOf? device trigger entry = some last) :
    ∃ period now, entry = (.check device trigger period now, .ok (.suppressed false)) ∧
      last = now.truncated := by
  unfold passOf? at h
  split at h
  · next device' trigger' period now =>
    split at h
    · next hpair =>
      obtain ⟨rfl, rfl⟩ := hpair
      exact ⟨period, now, rfl, (Option.some.inj h).symm⟩
    · cases h
  · cases h

theorem exists_check_of_latestPass {log : Log} (h : latestPass log device trigger = some last) :
    ∃ period now, (.check device trigger period now, .ok (.suppressed false)) ∈ log ∧
      last = now.truncated := by
  obtain ⟨entry, hentry, hpass⟩ := List.exists_of_findSome?_eq_some h
  obtain ⟨period, now, rfl, hlast⟩ := exists_check_of_passOf? hpass
  exact ⟨period, now, List.mem_reverse.mp hentry, hlast⟩

end Latest

/-! ### What follows from the answers -/

/-- Every call answers by the calls before it. -/
structure Follows (floor : Span) (log : Log) : Prop where
  isPlain : ∀ {call answer}, (call, answer) ∈ log → call.IsPlain
  answered : ∀ {earlier later call answer}, log = earlier ++ (call, answer) :: later →
    answer = .ok (call.answerAfter floor earlier)

theorem isCooling_eq_false_iff_toNanos {wait : Span} {last now : Instant} (hlast : ¬ last.isLeap) :
    isCooling wait last now = false ↔ ∃ ready : Instant, ¬ ready.isLeap ∧
      ready.toNanos = last.toNanos + wait.nanos ∧ ready ≤ now := by
  rw [isCooling_eq_false_iff]
  apply exists_congr
  intro ready
  rw [Instant.add?_eq_some_iff wait hlast, and_assoc]

/-- A wait that ends by an instant of the calendar ends at an instant of the calendar. -/
theorem exists_ready {wait : Int} {last now : Instant} (hwait : 0 ≤ wait) (hnow : ¬ now.isLeap)
    (h : last.toNanos + wait ≤ now.toNanos) :
    ∃ ready : Instant, ¬ ready.isLeap ∧ ready.toNanos = last.toNanos + wait ∧ ready ≤ now := by
  cases hready : Instant.ofNanos? (last.toNanos + wait) with
  | none =>
    have hfirst := last.first_le
    have hend := now.le_last
    rw [Instant.ofNanos?_eq_none_iff] at hready
    simp only [Instant.toNanos, Instant.isLeap] at h hnow hready
    omega
  | some ready =>
    have hleap := Instant.not_isLeap_of_ofNanos? hready
    have hnanos := Instant.toNanos_of_ofNanos? hready
    refine ⟨ready, hleap, hnanos, ?_⟩
    rw [Instant.le_iff_toNanos_le hleap hnow, hnanos]
    exact h

namespace Follows

variable {floor : Span} {log : Log} (h : Follows floor log)

include h

theorem not_isLeap {earlier later : Log} {device trigger : String} {last : Instant}
    (hlog : log = earlier ++ later) (hl : latestPass earlier device trigger = some last) :
    ¬ last.isLeap := by
  obtain ⟨period, now, hmem, rfl⟩ := exists_check_of_latestPass hl
  rw [hlog] at h
  exact Instant.not_isLeap_truncated (h.isPlain (List.mem_append_left _ hmem)).2.2

theorem passes {earlier later : Log} {device trigger : String} {period : Span} {now : Instant}
    {answer : Except (Stop StoreFailure) Answer}
    (hlog : log = earlier ++ (.check device trigger period now, answer) :: later) :
    ∃ held, answer = .ok (.suppressed held) ∧ (held = false ↔
      ∀ last, latestPass earlier device trigger = some last →
        ∃ ready : Instant, ¬ ready.isLeap ∧
          ready.toNanos = last.toNanos + max period.nanos floor.nanos ∧ ready ≤ now) := by
  refine ⟨_, h.answered hlog, ?_⟩
  cases hl : latestPass earlier device trigger with
  | none =>
    constructor
    · intro _ last hlast
      cases hlast
    · intro _
      rfl
  | some last =>
    show isCooling (max period floor) last now = false ↔ _
    rw [isCooling_eq_false_iff_toNanos (h.not_isLeap hlog hl), Span.nanos_max]
    constructor
    · intro hready last' hlast'
      cases hlast'
      exact hready
    · intro hready
      exact hready last rfl

/-- One call does not move the latest passed check back. -/
theorem forward_step {earlier later : Log} {entry : Call × Except (Stop StoreFailure) Answer}
    {device trigger : String} {last : Instant} (hfloor : 0 ≤ floor.nanos)
    (hlog : log = earlier ++ entry :: later) (hl : latestPass earlier device trigger = some last) :
    ∃ last', latestPass (earlier ++ [entry]) device trigger = some last' ∧ last ≤ last' := by
  rw [latestPass_concat]
  cases hpass : passOf? device trigger entry with
  | none => exact ⟨last, hl, Instant.le_refl last⟩
  | some last' =>
    refine ⟨last', rfl, ?_⟩
    obtain ⟨period, now, rfl, rfl⟩ := exists_check_of_passOf? hpass
    obtain ⟨held, hheld, hopen⟩ := h.passes hlog
    cases hheld
    obtain ⟨ready, hleap, hready, hnow⟩ := hopen.mp rfl last hl
    have hle : last ≤ ready := by
      rw [Instant.le_iff_toNanos_le (h.not_isLeap hlog hl) hleap]
      omega
    obtain ⟨_, before, -, rfl⟩ := exists_check_of_latestPass hl
    exact Instant.truncated_le_truncated (Instant.le_trans hle hnow)

theorem forward {earlier later : Log} {device trigger : String} {last : Instant}
    (hfloor : 0 ≤ floor.nanos) (hlog : log = earlier ++ later)
    (hl : latestPass earlier device trigger = some last) :
    ∃ last', latestPass log device trigger = some last' ∧ last ≤ last' := by
  induction later generalizing earlier last with
  | nil =>
    rw [hlog, List.append_nil]
    exact ⟨last, hl, Instant.le_refl last⟩
  | cons entry rest ih =>
    obtain ⟨next, hnext, hle⟩ := h.forward_step hfloor hlog hl
    rw [List.append_cons] at hlog
    obtain ⟨last', hlast', hle'⟩ := ih hlog hnext
    exact ⟨last', hlast', Instant.le_trans hle hle'⟩

theorem opens {before between later : Log} {device trigger : String} {period : Span}
    {now : Instant} {answer : Except (Stop StoreFailure) Answer} (hfloor : 0 ≤ floor.nanos)
    (hlog : log = before ++ (between ++ (.check device trigger period now, answer) :: later))
    (hold : ∀ period₀ now₀ answer₀, (.check device trigger period₀ now₀, answer₀) ∈ before →
      now₀.toNanos + max period.nanos floor.nanos ≤ now.toNanos) :
    ∃ entry ∈ between ++ [(.check device trigger period now, answer)],
      (passOf? device trigger entry).isSome := by
  cases hbetween : latestPass between device trigger with
  | some last =>
    obtain ⟨entry, hentry, hpass⟩ := List.exists_of_findSome?_eq_some hbetween
    refine ⟨entry, List.mem_append_left _ (List.mem_reverse.mp hentry), ?_⟩
    rw [hpass]
    rfl
  | none =>
    -- nothing was passed in between, so the latest passed check is as long ago as the wait
    refine ⟨_, List.mem_append_right _ List.mem_cons_self, ?_⟩
    rw [← List.append_assoc] at hlog
    obtain ⟨held, rfl, hopen⟩ := h.passes hlog
    have hfree : held = false := by
      rw [hopen, latestPass_append, hbetween]
      intro last hl
      obtain ⟨period₀, now₀, hmem, rfl⟩ := exists_check_of_latestPass hl
      have hmem' : (.check device trigger period now, .ok (.suppressed held)) ∈ log := by
        rw [hlog]
        exact List.mem_append_right _ List.mem_cons_self
      have hnow := (h.isPlain hmem').2.2
      have hlong := hold period₀ now₀ _ hmem
      apply exists_ready (by omega) hnow
      have hcut : now₀.truncated.toNanos ≤ now₀.toNanos := by
        simp only [Instant.toNanos, Instant.truncated]
        omega
      omega
    rw [hfree, passOf?, if_pos ⟨rfl, rfl⟩]
    rfl

theorem isGreedy (hfloor : 0 ≤ floor.nanos) : IsGreedy floor log where
  passes hlog := h.passes hlog
  fires hlog := h.answered hlog
  forward hlog hl := h.forward hfloor hlog hl
  opens hlog hold := h.opens hfloor hlog hold

end Follows

/-! ### Document stores -/

section Stores

variable {σ γ : Type} {docs : Documents σ} {sound : σ → Prop} {cell : σ → String → γ}
variable {fetched : γ → Except (Stop StoreFailure) (Option Json)} {filled : Json → γ}
variable {floor : Span} {log : Log} {s : Session σ}

/-- The documents hold the latest passed check of every trigger. -/
structure KeepsLatest (sound : σ → Prop) (cell : σ → String → γ)
    (fetched : γ → Except (Stop StoreFailure) (Option Json)) (log : Log) (m : σ) : Prop where
  isSound : sound m
  latest : ∀ device trigger, Key.hasSeparator device = false →
    ∃ found, fetched (cell m (Key.cooldown device trigger)) = .ok found ∧
      found.bind fire? = latestPass log device trigger

theorem KeepsLatest.lastFire (hm : KeepsLatest sound cell fetched log s.stores)
    (h : docs.IsCellwise sound cell fetched filled) {device : String} (trigger : String)
    (hd : Key.hasSeparator device = false) :
    ∃ t, (lastFire docs device trigger).onSession s = (.ok (latestPass log device trigger), t) ∧
      KeepsLatest sound cell fetched log t.stores := by
  obtain ⟨found, hfound, hlatest⟩ := hm.latest device trigger hd
  obtain ⟨t, hran, hsound, hcell⟩ := h.get (Key.cooldown device trigger) hm.isSound
  rw [hfound] at hran
  refine ⟨t, (Action.onSession_bind_ok hran).trans ?_, hsound, ?_⟩
  · rw [hlatest]
    rfl
  · rw [hcell]
    exact hm.latest

/-- A call that is no passed check adds nothing to what the documents hold. -/
theorem KeepsLatest.concat (hm : KeepsLatest sound cell fetched log s.stores)
    {entry : Call × Except (Stop StoreFailure) Answer}
    (hentry : ∀ device trigger, passOf? device trigger entry = none) :
    KeepsLatest sound cell fetched (log ++ [entry]) s.stores where
  isSound := hm.isSound
  latest device trigger hd := by
    rw [latestPass_concat, hentry]
    exact hm.latest device trigger hd

theorem KeepsLatest.put (hm : KeepsLatest sound cell fetched log s.stores)
    (h : docs.IsCellwise sound cell fetched filled)
    (hread : ∀ t, fetched (filled (document t)) = .ok (some (document t)))
    {device : String} (trigger : String) (period : Span) {now : Instant}
    (hd : Key.hasSeparator device = false) (hnow : now.HasPlainYear) :
    ∃ t, (docs.put (Key.cooldown device trigger) (document now)).onSession s = (.ok (), t) ∧
      KeepsLatest sound cell fetched
        (log ++ [(.check device trigger period now, .ok (.suppressed false))]) t.stores := by
  obtain ⟨t, hran, hsound, hcell⟩ := h.put (Key.cooldown device trigger) (document now) hm.isSound
  refine ⟨t, hran, hsound, ?_⟩
  intro device' trigger' hd'
  rw [hcell, latestPass_concat, passOf?]
  by_cases hkey : Key.cooldown device trigger = Key.cooldown device' trigger'
  · rw [if_pos hkey, if_pos (Key.cooldown_inj hd hd' hkey)]
    refine ⟨some (document now), hread now, ?_⟩
    rw [Option.bind_some, fire?_document hnow, Option.some_or]
  · have hpair : ¬ (device = device' ∧ trigger = trigger') := by
      rintro ⟨rfl, rfl⟩
      exact hkey rfl
    rw [if_neg hkey, if_neg hpair]
    exact hm.latest device' trigger' hd'

theorem KeepsLatest.perform (floor : Span) (hm : KeepsLatest sound cell fetched log s.stores)
    (h : docs.IsCellwise sound cell fetched filled)
    (hread : ∀ t, fetched (filled (document t)) = .ok (some (document t)))
    {call : Call} (hcall : call.IsPlain) :
    ∃ t, (call.perform docs floor).onSession s = (.ok (call.answerAfter floor log), t) ∧
      KeepsLatest sound cell fetched (log ++ [(call, .ok (call.answerAfter floor log))])
        t.stores := by
  cases call with
  | ask device trigger =>
    obtain ⟨t, hran, ht⟩ := hm.lastFire h trigger hcall
    exact ⟨t, Action.onSession_bind_ok hran, ht.concat fun _ _ => rfl⟩
  | check device trigger period now =>
    obtain ⟨hd, hnow, -⟩ := hcall
    obtain ⟨t, hran, ht⟩ := hm.lastFire h trigger hd
    cases hheld : (latestPass log device trigger).any fun last =>
        isCooling (max period floor) last now with
    | true =>
      have hsuppressed : (suppresses docs floor device trigger period now).onSession s =
          (.ok true, t) := by
        refine (Action.onSession_bind_ok hran).trans ?_
        rw [if_pos hheld]
        rfl
      rw [Call.answerAfter, hheld]
      exact ⟨t, Action.onSession_bind_ok hsuppressed, ht.concat fun _ _ => rfl⟩
    | false =>
      obtain ⟨u, hput, hu⟩ := ht.put h hread trigger period hd hnow
      have hpassed : (suppresses docs floor device trigger period now).onSession s =
          (.ok false, u) := by
        refine (Action.onSession_bind_ok hran).trans ?_
        rw [if_neg (by rw [hheld]; exact Bool.false_ne_true)]
        exact Action.onSession_bind_ok hput
      rw [Call.answerAfter, hheld]
      exact ⟨u, Action.onSession_bind_ok hpassed, hu⟩

theorem mem_of_mem_transcript {perform : Call → Action σ StoreFailure Answer} {calls : List Call}
    {s : Session σ} {call : Call} {answer : Except (Stop StoreFailure) Answer}
    (h : (call, answer) ∈ transcript perform calls s) : call ∈ calls := by
  induction calls generalizing s with
  | nil => cases h
  | cons first rest ih =>
    rw [transcript, List.mem_cons] at h
    rcases h with heq | hrest
    · cases heq
      exact List.mem_cons_self
    · exact List.mem_cons_of_mem _ (ih hrest)

/-- What a call answers after others. -/
theorem answerAfter_of_transcript (h : docs.IsCellwise sound cell fetched filled)
    (hread : ∀ t, fetched (filled (document t)) = .ok (some (document t))) {calls : List Call}
    (hcalls : ∀ call ∈ calls, call.IsPlain) {past : Log} {s : Session σ}
    (hm : KeepsLatest sound cell fetched past s.stores) {earlier later : Log} {call : Call}
    {answer : Except (Stop StoreFailure) Answer}
    (hlog : transcript (Call.perform docs floor) calls s = earlier ++ (call, answer) :: later) :
    answer = .ok (call.answerAfter floor (past ++ earlier)) := by
  -- the past grows call by call, and the documents hold all the while the latest passed checks
  induction calls generalizing past s earlier with
  | nil => cases earlier <;> cases hlog
  | cons first rest ih =>
    obtain ⟨hfirst, hrest⟩ := List.forall_mem_cons.mp hcalls
    obtain ⟨t, hran, ht⟩ := hm.perform floor h hread hfirst
    rw [transcript, hran] at hlog
    cases earlier with
    | nil =>
      cases hlog
      rw [List.append_nil]
    | cons entry earlier =>
      obtain ⟨rfl, htail⟩ := List.cons.inj hlog
      rw [List.append_cons]
      exact ih hrest ht htail

theorem follows_transcript (floor : Span) (h : docs.IsCellwise sound cell fetched filled)
    (hread : ∀ t, fetched (filled (document t)) = .ok (some (document t))) {calls : List Call}
    (hcalls : ∀ call ∈ calls, call.IsPlain) (hm : KeepsLatest sound cell fetched [] s.stores) :
    Follows floor (transcript (Call.perform docs floor) calls s) where
  isPlain hmem := hcalls _ (mem_of_mem_transcript hmem)
  answered hlog := answerAfter_of_transcript h hread hcalls hm hlog

/-- The calls on one trigger answer as they do without the calls on others. -/
def AreApart (docs : Documents σ) (floor : Span) (calls : List Call) (s : Session σ) : Prop :=
  ∀ device trigger, Key.hasSeparator device = false →
    (transcript (Call.perform docs floor) calls s).filter
        (fun entry => entry.1.concerns device trigger) =
      transcript (Call.perform docs floor) (calls.filter fun call => call.concerns device trigger) s

theorem isConfined_perform (h : docs.IsCellwise sound cell fetched filled) {keys : String → Prop}
    {call : Call} (hkey : keys call.key) :
    IsConfined sound cell keys (call.perform docs floor) := by
  cases call with
  | check device trigger period now =>
    exact (isConfined_suppresses h hkey floor period now).bind fun _ => .pure _
  | ask device trigger => exact (isConfined_lastFire h hkey).bind fun _ => .pure _

/-- A key tells which trigger a call concerns, also where two names run together to one text. -/
theorem Call.IsPlain.concerns_eq {call : Call} (hcall : call.IsPlain) {device trigger : String}
    (hd : Key.hasSeparator device = false) :
    call.concerns device trigger = decide (call.key = Key.cooldown device trigger) := by
  rw [Call.concerns, decide_eq_decide]
  constructor
  · rintro ⟨rfl, rfl⟩
    rfl
  · intro hkey
    exact Key.cooldown_inj hcall.not_hasSeparator hd hkey

theorem areApart (h : docs.IsCellwise sound cell fetched filled) {calls : List Call}
    (hcalls : ∀ call ∈ calls, call.IsPlain) (hs : sound s.stores)
    (hfollows : Follows floor (transcript (Call.perform docs floor) calls s)) :
    AreApart docs floor calls s := by
  intro device trigger hd
  have hmine : ∀ call : Call, decide (call.key = Key.cooldown device trigger) = true →
      IsConfined sound cell (· = Key.cooldown device trigger) (call.perform docs floor) :=
    fun call hcall => isConfined_perform h (of_decide_eq_true hcall)
  have hothers : ∀ call : Call, decide (call.key = Key.cooldown device trigger) = false →
      IsConfined sound cell (· ≠ Key.cooldown device trigger) (call.perform docs floor) :=
    fun call hcall => isConfined_perform h (of_decide_eq_false hcall)
  have hkeys := filter_transcript cell (fun key => not_not_intro) hmine hothers calls hs hs
    fun _ _ => rfl
  have hcongr : calls.filter (fun call => call.concerns device trigger) =
      calls.filter fun call => decide (call.key = Key.cooldown device trigger) :=
    List.filter_congr fun call hcall => (hcalls call hcall).concerns_eq hd
  rw [hcongr, ← hkeys]
  apply List.filter_congr
  intro entry hentry
  exact (hfollows.isPlain hentry).concerns_eq hd

end Stores

theorem fetched_filled_document (t : Instant) :
    Redis.fetched (Redis.filled (document t)) = .ok (some (document t)) := by
  have hread : Json.ofText? (Json.render (document t)) = some (document t) :=
    Json.ofText?_render_member "timestamp" t.format
  simp only [Redis.filled, Redis.fetched, Redis.decode_encode, hread]

/-- Calls in any order on a store without records of fires, in memory or on a Redis server: the
checks of a trigger let pass what the latest passed one allows, every question for a last fire is
answered with it, and no trigger sees another one. -/
theorem checks_greedy {floor : Span} (hfloor : 0 ≤ floor.nanos) {calls : List Call}
    (hcalls : ∀ call ∈ calls, call.IsPlain) :
    (∀ s : Session Memory, s.stores.link.IsSound →
      (∀ device trigger, Dict.get? s.stores.documents (Key.cooldown device trigger) = none) →
      IsGreedy floor (transcript (Call.perform Memory.documentStore floor) calls s) ∧
        AreApart Memory.documentStore floor calls s) ∧
    ∀ (keyPrefix : String) (s : Session Redis), s.stores.link.IsSound →
      (∀ device trigger,
        Dict.get? s.stores.keys (keyPrefix ++ Key.cooldown device trigger) = none) →
      IsGreedy floor (transcript (Call.perform (Redis.documentStore keyPrefix) floor) calls s) ∧
        AreApart (Redis.documentStore keyPrefix) floor calls s := by
  constructor
  · intro s hsound hempty
    have hfollows := follows_transcript floor Memory.isCellwise_documentStore
      (fun _ => rfl) hcalls ⟨hsound, fun device trigger _ => ⟨none, by rw [hempty], rfl⟩⟩
    exact ⟨hfollows.isGreedy hfloor,
      areApart Memory.isCellwise_documentStore hcalls hsound hfollows⟩
  · intro keyPrefix s hsound hempty
    have hfollows := follows_transcript floor (Redis.isCellwise_documentStore keyPrefix)
      fetched_filled_document hcalls
      ⟨hsound, fun device trigger _ => ⟨none, by rw [hempty]; rfl, rfl⟩⟩
    exact ⟨hfollows.isGreedy hfloor,
      areApart (Redis.isCellwise_documentStore keyPrefix) hcalls hsound hfollows⟩

/-- A check of a rule with a period of a minute. -/
def Call.minutely (device trigger timestamp : String) : Call :=
  .check device trigger (Span.ofSeconds 60) ((Instant.ofText? timestamp).getD default)

/-- Calls on two triggers whose names are the same when they are joined by an underscore. -/
def collidingCalls : List Call := [
  .minutely "g88_pi" "lot" "2024-05-01T10:00:00.0000005Z",
  .minutely "g88" "pi_lot" "2024-05-01T10:00:30Z",
  .minutely "g88_pi" "lot" "2024-05-01T10:00:59Z",
  .minutely "g88_pi" "lot" "2024-05-01T10:01:00Z",
  .ask "g88" "pi_lot"]

theorem checks_greedy_of_collidingCalls :
    IsGreedy (Span.ofSeconds 30) (transcript
      (Call.perform Memory.documentStore (Span.ofSeconds 30)) collidingCalls
      (.fresh fun _ => none)) ∧
    IsGreedy (Span.ofSeconds 30) (transcript
      (Call.perform (Redis.documentStore "watch:") (Span.ofSeconds 30)) collidingCalls
      { stores := { link := Link.sound, keys := [] }, elapsed := 0, deadline := none }) ∧
    (transcript (Call.perform Memory.documentStore (Span.ofSeconds 30)) collidingCalls
      (.fresh fun _ => none)).map (fun entry => entry.2.toOption) = [
        some (.suppressed false), some (.suppressed false), some (.suppressed true),
        some (.suppressed false), some (.fired (Instant.ofText? "2024-05-01T10:00:30Z"))] := by
  have hplain : ∀ call ∈ collidingCalls, call.IsPlain := by decide +kernel
  have hfloor : 0 ≤ (Span.ofSeconds 30).nanos := by decide
  have hgreedy := checks_greedy hfloor hplain
  exact ⟨(hgreedy.1 _ (fun _ => rfl) fun _ _ => rfl).1,
    (hgreedy.2 "watch:" _ Link.isSound_sound fun _ _ => rfl).1, by decide +kernel⟩

end Cooldown

end TriggerWatch
