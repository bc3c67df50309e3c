import Mathlib.Logic.Function.Basic
import TriggerWatch.Proofs.Retention

/-!
# Ingestion

To ingest a reading is to append it and to prune the history, with one call that reads and one call
that writes. Where no call fails the two come to the same. Where one fails, nothing is ingested,
while a reading that was appended stays in a history that could not be pruned.

## Main definitions

- `Performs` — an action that succeeds makes a change of what is stored
- `IsClean` — an action that fails leaves what is stored
- `Documents.IsAtomic` — a document store whose calls do what they should or nothing
- `Agree` — two actions come to the same where neither fails
- `History.EndsIngestion` — the ways in which an ingestion ends

## Main statements

- `Performs.bind`, `Performs.agree` — actions in sequence, and with the same change
- `Memory.isAtomic_documentStore`, `Documents.IsAtomic.timed` — document stores that are atomic
- `History.ingested_eq` — the change that an ingestion makes
- `History.pruned_pruned` — of two prunings the later horizon counts
- `History.ingest_atomic` — an ingestion against an appending and a pruning
-/

namespace TriggerWatch

variable {σ γ ε α β : Type} {sound : σ → Prop} {view : σ → γ}

/-! ### Changes of what is stored -/

/-- An action that succeeds makes a change of what is stored and answers with what goes with it.
On sound stores it does succeed. -/
structure Performs (sound : σ → Prop) (view : σ → γ) (a : Action σ ε α) (change : γ → α × γ) :
    Prop where
  ok : ∀ (s : Session σ) {t : Session σ} {x : α}, a.onSession s = (.ok x, t) →
    change (view s.stores) = (x, view t.stores)
  succeeds : ∀ (s : Session σ), sound s.stores →
    ∃ x t, a.onSession s = (.ok x, t) ∧ sound t.stores

/-- An action that fails leaves what is stored. -/
def IsClean (view : σ → γ) (a : Action σ ε α) : Prop :=
  ∀ (s : Session σ) {t : Session σ} {stop : Stop ε}, a.onSession s = (.error stop, t) →
    view t.stores = view s.stores

/-- Two actions come to the same: on sound stores both succeed, and wherever neither fails they have
the same answer and leave the same. -/
structure Agree (sound : σ → Prop) (view : σ → γ) (a b : Action σ ε α) : Prop where
  succeed : ∀ (s : Session σ), sound s.stores →
    ∃ x t u, a.onSession s = (.ok x, t) ∧ b.onSession s = (.ok x, u) ∧
      view t.stores = view u.stores
  ok : ∀ (s s' : Session σ) {t t' : Session σ} {x x' : α}, view s.stores = view s'.stores →
    a.onSession s = (.ok x, t) → b.onSession s' = (.ok x', t') →
      x = x' ∧ view t.stores = view t'.stores

namespace Action

variable {a : Action σ ε α} {s u : Session σ}

/-- A run under a deadline that succeeds does so without it. -/
theorem exists_of_onSession_within_ok {milliseconds : Nat} {late : ε} {x : α}
    (h : (a.within milliseconds late).onSession s = (.ok x, u)) :
    ∃ t, a.onSession { s with deadline := some (s.elapsed + milliseconds) } = (.ok x, t) ∧
      u.stores = t.stores := by
  obtain ⟨hresult, hstores⟩ := onSession_within milliseconds late a s
  rcases hrun : a.onSession { s with deadline := some (s.elapsed + milliseconds) } with
    ⟨(_ | _ | _) | y, t⟩ <;> rw [h, hrun] at hresult hstores <;> cases hresult
  exact ⟨t, rfl, hstores⟩

end Action

namespace Performs

variable {a b : Action σ ε α} {f : α → Action σ ε β} {change : γ → α × γ}

theorem pure (x : α) : Performs (ε := ε) sound view (Pure.pure x) fun c => (x, c) where
  ok s t y h := by
    cases h
    rfl
  succeeds s hs := ⟨x, s, rfl, hs⟩

theorem bind {next : α → γ → β × γ} (ha : Performs sound view a change)
    (hf : ∀ x, Performs sound view (f x) (next x)) :
    Performs sound view (a >>= f) fun c => next (change c).1 (change c).2 where
  ok s u y h := by
    obtain ⟨x, t, hx, hy⟩ := Action.exists_of_onSession_bind h
    rw [ha.ok s hx]
    exact (hf x).ok t hy
  succeeds s hs := by
    obtain ⟨x, t, hx, ht⟩ := ha.succeeds s hs
    obtain ⟨y, u, hy, hu⟩ := (hf x).succeeds t ht
    exact ⟨y, u, (Action.onSession_bind_ok hx).trans hy, hu⟩

theorem within (milliseconds : Nat) (late : ε) (ha : Performs sound view a change) :
    Performs sound view (a.within milliseconds late) change where
  ok s u x h := by
    obtain ⟨t, hrun, hstores⟩ := Action.exists_of_onSession_within_ok h
    have hchange := ha.ok _ hrun
    rwa [hstores]
  succeeds s hs := by
    obtain ⟨x, t, hrun, ht⟩ := ha.succeeds { s with deadline := some (s.elapsed + milliseconds) } hs
    obtain ⟨hresult, hstores⟩ := Action.onSession_within milliseconds late a s
    rw [hrun] at hresult hstores
    refine ⟨x, ((a.within milliseconds late).onSession s).2, Prod.ext hresult rfl, ?_⟩
    rwa [hstores]

/-- Actions that make the same change come to the same. -/
theorem agree {change' : γ → α × γ} (ha : Performs sound view a change)
    (hb : Performs sound view b change') (h : ∀ c, change c = change' c) :
    Agree sound view a b where
  succeed s hs := by
    obtain ⟨x, t, hx, -⟩ := ha.succeeds s hs
    obtain ⟨y, u, hy, -⟩ := hb.succeeds s hs
    have hsame : (x, view t.stores) = (y, view u.stores) := by
      rw [← ha.ok s hx, h, hb.ok s hy]
    obtain ⟨rfl, hview⟩ := Prod.mk.inj hsame
    exact ⟨x, t, u, hx, hy, hview⟩
  ok s s' t t' x x' hview hx hy := by
    have hsame : (x, view t.stores) = (x', view t'.stores) := by
      rw [← ha.ok s hx, h, hview, hb.ok s' hy]
    exact Prod.mk.inj hsame

end Performs

namespace IsClean

variable {a : Action σ ε α} {f : α → Action σ ε β}

/-- What only reads may come before. -/
theorem bind {answer : γ → α} (ha : IsClean view a)
    (hread : Performs sound view a fun c => (answer c, c)) (hf : ∀ x, IsClean view (f x)) :
    IsClean view (a >>= f) := by
  intro s u stop h
  rcases hx : a.onSession s with ⟨stop' | x, t⟩
  · rw [Action.onSession_bind_error hx] at h
    cases h
    exact ha s hx
  · rw [Action.onSession_bind_ok hx] at h
    have hkept : view s.stores = view t.stores := (Prod.mk.inj (hread.ok s hx)).2
    rw [hkept]
    exact hf x t h

/-- What cannot fail may come after. -/
theorem map (g : α → β) (ha : IsClean view a) :
    IsClean view (a >>= fun x => Pure.pure (g x)) := by
  intro s u stop h
  rcases hx : a.onSession s with ⟨stop' | x, t⟩
  · rw [Action.onSession_bind_error hx] at h
    cases h
    exact ha s hx
  · rw [Action.onSession_bind_ok hx] at h
    cases h

theorem within (milliseconds : Nat) (late : ε) (ha : IsClean view a) :
    IsClean view (a.within milliseconds late) := by
  intro s t stop h
  obtain ⟨hresult, hstores⟩ := Action.onSession_within milliseconds late a s
  rcases hrun : a.onSession { s with deadline := some (s.elapsed + milliseconds) } with ⟨r, u⟩
  rw [h, hrun] at hresult hstores
  cases r with
  | ok y => cases hresult
  | error =>
    have hkept := ha _ hrun
    rwa [hstores]

end IsClean

/-! ### Atomic stores -/

/-- A document store whose calls do what they should, or fail and do nothing. On sound stores they
do not fail. -/
structure Documents.IsAtomic (docs : Documents σ) (sound : σ → Prop)
    (document? : σ → String → Option Json) : Prop where
  get : ∀ key, Performs sound document? (docs.get key) fun c => (c key, c)
  get_clean : ∀ key, IsClean document? (docs.get key)
  put : ∀ key document, Performs sound document? (docs.put key document) fun c =>
    ((), Function.update c key (some document))
  put_clean : ∀ key document, IsClean document? (docs.put key document)

/-- A deadline on every call keeps a store atomic. -/
theorem Documents.IsAtomic.timed {docs : Documents σ} {document? : σ → String → Option Json}
    (h : docs.IsAtomic sound document?) (milliseconds : Nat) :
    (docs.timed milliseconds).IsAtomic sound document? where
  get key := (h.get key).within _ _
  get_clean key := (h.get_clean key).within _ _
  put key document := (h.put key document).within _ _
  put_clean key document := (h.put_clean key document).within _ _

namespace Memory

variable {a : Action Memory StoreFailure α} {answer : Memory → α} {effect : Memory → List Change}

theorem Responds.isClean (ha : Behaves .apart a (Responds answer effect)) :
    IsClean document? a := by
  intro s t stop h
  obtain ⟨fx, hr, ev⟩ := ha s
  rw [h] at hr ev
  cases hr with
  | failed | unanswered => exact funext fun key => ev.document?_eq (by simp)

theorem Responds.performs (ha : Behaves .apart a (Responds answer effect))
    {change : (String → Option Json) → α × (String → Option Json)}
    (h : ∀ m, change m.document? = (answer m, (m.enactAll .apart (effect m)).document?)) :
    Performs (fun m => ¬ m.IsFaulty) document? a change where
  ok s t x hx := by
    obtain ⟨fx, hr, ev⟩ := ha s
    rw [hx] at hr ev
    cases hr with
    | answered =>
      rw [h]
      exact congrArg (Prod.mk _) (funext fun key => (ev.document?_enacted key).symm)
  succeeds s hs := by
    obtain ⟨t, hx, ev⟩ := Responds.onSession ha hs
    exact ⟨_, t, hx, fun hf => hs (ev.isFaulty_iff.mp hf)⟩

/-- The document store in memory is atomic, whatever happens to its calls. -/
theorem isAtomic_documentStore :
    documentStore.IsAtomic (fun m => ¬ m.IsFaulty) document? where
  get key := Responds.performs (getDocument_responds key) fun _ => rfl
  get_clean key := Responds.isClean (getDocument_responds key)
  put key document := Responds.performs (putDocument_responds key document) fun m => by
    refine congrArg (Prod.mk _) (funext fun other => ?_)
    refine Eq.trans ?_ (document?_put (b := .apart) key document other).symm
    rw [Function.update_apply]
    simp only [eq_comm]
  put_clean key document := Responds.isClean (putDocument_responds key document)

end Memory

/-! ### The changes that calls on histories make -/

namespace History

/-- The records of a device in documents under their keys. -/
def recordsIn (device : String) (documents : String → Option Json) : List Json :=
  recordsOf (documents (Key.history device))

/-- Documents with other records of a device. -/
def withRecords (device : String) (records : List Json) (documents : String → Option Json) :
    String → Option Json :=
  Function.update documents (Key.history device) (some (.array records))

/-- The change that an appending makes. -/
def appended (device : String) (reading : Reading) (documents : String → Option Json) :
    Unit × (String → Option Json) :=
  ((), withRecords device (recordsIn device documents ++ [reading.toJson]) documents)

/-- The change that a pruning makes. -/
def pruned (device : String) (horizon : Instant) (documents : String → Option Json) :
    List Json × (String → Option Json) :=
  let kept := keepRecent horizon (recordsIn device documents)
  (kept, withRecords device kept documents)

/-- The change that an ingestion makes. -/
def ingested (device : String) (reading : Reading) (horizon : Instant)
    (documents : String → Option Json) : List Json × (String → Option Json) :=
  let kept := keepRecent horizon (recordsIn device documents ++ [reading.toJson])
  (kept, withRecords device kept documents)

variable {device : String} {reading : Reading} {horizon earlier later : Instant}
  {documents : String → Option Json}

@[simp] theorem recordsIn_withRecords (records : List Json) :
    recordsIn device (withRecords device records documents) = records := by
  rw [recordsIn, withRecords, Function.update_self]
  rfl

@[simp] theorem withRecords_withRecords (records records' : List Json) :
    withRecords device records' (withRecords device records documents) =
      withRecords device records' documents :=
  Function.update_idem _ _ _

/-- To ingest a reading is to append it and to prune the history. -/
theorem ingested_eq : ingested device reading horizon documents =
    pruned device horizon (appended device reading documents).2 := by
  simp [ingested, pruned, appended]

/-- Of two horizons the later one counts, whichever comes first. -/
theorem keepRecent_keepRecent {first second : Instant}
    (h : ∀ t, later ≤ t ↔ first ≤ t ∧ second ≤ t) (records : List Json) :
    keepRecent second (keepRecent first records) = keepRecent later records := by
  rw [keepRecent, keepRecent, keepRecent, List.filter_filter]
  refine List.filter_congr fun record _ => ?_
  rw [isRecent, isRecent, isRecent]
  cases timestamp? record with
  | none => rfl
  | some t =>
    rw [Bool.eq_iff_iff, Bool.and_eq_true, decide_eq_true_iff, decide_eq_true_iff,
      decide_eq_true_iff, h t, and_comm]

theorem pruned_pruned {first second : Instant} (h : ∀ t, later ≤ t ↔ first ≤ t ∧ second ≤ t) :
    pruned device second (pruned device first documents).2 = pruned device later documents := by
  simp [pruned, keepRecent_keepRecent h]

theorem pruned_pruned_of_le (h : earlier ≤ later) :
    pruned device later (pruned device earlier documents).2 = pruned device later documents :=
  pruned_pruned fun _ => ⟨fun ht => ⟨Instant.le_trans h ht, ht⟩, And.right⟩

theorem pruned_pruned_of_ge (h : earlier ≤ later) :
    pruned device earlier (pruned device later documents).2 = pruned device later documents :=
  pruned_pruned fun _ => ⟨fun ht => ⟨ht, Instant.le_trans h ht⟩, And.left⟩

/-! ### The calls -/

variable {docs : Documents σ} {document? : σ → String → Option Json} {retention : Span}
  {now : Instant}

theorem performs_load (hdocs : docs.IsAtomic sound document?) (device : String) :
    Performs sound document? (load docs device) fun c => (recordsIn device c, c) :=
  (hdocs.get _).bind fun _ => .pure _

theorem performs_save (hdocs : docs.IsAtomic sound document?) (device : String)
    (records : List Json) : Performs sound document? (save docs device records) fun c =>
      ((), withRecords device records c) :=
  hdocs.put _ _

theorem performs_append (hdocs : docs.IsAtomic sound document?) (device : String)
    (reading : Reading) :
    Performs sound document? (append docs device reading) (appended device reading) :=
  (performs_load hdocs device).bind fun _ => performs_save hdocs device _

/-- What a pruning and an ingestion end with: of some records those that are not too old are
saved. -/
def keep (docs : Documents σ) (retention : Span) (device : String) (now : Instant)
    (records : List Json) : Action σ StoreFailure (List Json) := do
  let horizon ← Action.inCalendar (now.sub? retention)
  let kept := keepRecent horizon records
  save docs device kept
  return kept

theorem ingest_eq (docs : Documents σ) (retention : Span) (device : String) (reading : Reading)
    (now : Instant) : ingest docs retention device reading now =
      load docs device >>= fun records =>
        keep docs retention device now (records ++ [reading.toJson]) := rfl

theorem performs_keep (hdocs : docs.IsAtomic sound document?) (device : String)
    (h : now.sub? retention = some horizon) (records : List Json) :
    Performs sound document? (keep docs retention device now records) fun c =>
      (keepRecent horizon records, withRecords device (keepRecent horizon records) c) := by
  rw [keep, h]
  exact (Performs.pure horizon).bind fun _ => (performs_save hdocs device _).bind fun _ => .pure _

theorem isClean_keep (hdocs : docs.IsAtomic sound document?) (device : String)
    (records : List Json) : IsClean document? (keep docs retention device now records) := by
  rw [keep]
  cases now.sub? retention with
  | none =>
    intro s t stop h
    cases h
    rfl
  | some horizon => exact IsClean.map _ (hdocs.put_clean _ _)

theorem performs_prune (hdocs : docs.IsAtomic sound document?) (device : String)
    (h : now.sub? retention = some horizon) :
    Performs sound document? (prune docs retention device now) (pruned device horizon) :=
  (performs_load hdocs device).bind (performs_keep hdocs device h)

theorem performs_ingest (hdocs : docs.IsAtomic sound document?) (device : String)
    (reading : Reading) (h : now.sub? retention = some horizon) :
    Performs sound document? (ingest docs retention device reading now)
      (ingested device reading horizon) :=
  (performs_load hdocs device).bind fun _ => performs_keep hdocs device h _

theorem isClean_load (hdocs : docs.IsAtomic sound document?) (device : String) :
    IsClean document? (load docs device) :=
  (hdocs.get_clean _).map _

theorem isClean_prune (hdocs : docs.IsAtomic sound document?) (device : String) :
    IsClean document? (prune docs retention device now) :=
  (isClean_load hdocs device).bind (performs_load hdocs device) (isClean_keep hdocs device)

theorem isClean_ingest (hdocs : docs.IsAtomic sound document?) (device : String)
    (reading : Reading) : IsClean document? (ingest docs retention device reading now) :=
  (isClean_load hdocs device).bind (performs_load hdocs device) fun _ => isClean_keep hdocs device _

/-- How an ingestion ends: the failure is that of the call that fails, and no other call follows. -/
inductive EndsIngestion (docs : Documents σ) (horizon : Instant) (device : String) (reading : Reading)
    (s : Session σ) : Except (Stop StoreFailure) (List Json) × Session σ → Prop
  | unread {stop : Stop StoreFailure} {t : Session σ}
    (hget : (docs.get (Key.history device)).onSession s = (.error stop, t)) :
    EndsIngestion docs horizon device reading s (.error stop, t)
  | unsaved {found : Option Json} {stop : Stop StoreFailure} {t u : Session σ}
    (hget : (docs.get (Key.history device)).onSession s = (.ok found, t))
    (hput : (docs.put (Key.history device)
      (.array (keepRecent horizon (recordsOf found ++ [reading.toJson])))).onSession t =
        (.error stop, u)) :
    EndsIngestion docs horizon device reading s (.error stop, u)
  | saved {found : Option Json} {t u : Session σ}
    (hget : (docs.get (Key.history device)).onSession s = (.ok found, t))
    (hput : (docs.put (Key.history device)
      (.array (keepRecent horizon (recordsOf found ++ [reading.toJson])))).onSession t =
        (.ok (), u)) :
    EndsIngestion docs horizon device reading s
      (.ok (keepRecent horizon (recordsOf found ++ [reading.toJson])), u)

theorem ingest_endsIngestion (docs : Documents σ) (device : String) (reading : Reading)
    (h : now.sub? retention = some horizon) (s : Session σ) :
    EndsIngestion docs horizon device reading s
      ((ingest docs retention device reading now).onSession s) := by
  rw [ingest_eq]
  rcases hget : (docs.get (Key.history device)).onSession s with ⟨stop | found, t⟩
  · have hload : (load docs device).onSession s = (.error stop, t) :=
      Action.onSession_bind_error hget
    rw [Action.onSession_bind_error hload]
    exact .unread hget
  · have hload : (load docs device).onSession s = (.ok (recordsOf found), t) :=
      (Action.onSession_bind_ok hget).trans rfl
    have hhorizon : (Action.inCalendar (some horizon) : Action σ StoreFailure _).onSession t =
        (.ok horizon, t) := rfl
    rw [Action.onSession_bind_ok hload, keep, h, Action.onSession_bind_ok hhorizon]
    rcases hput : (save docs device (keepRecent horizon
      (recordsOf found ++ [reading.toJson]))).onSession t with ⟨stop | ⟨⟨⟩⟩, u⟩
    · rw [Action.onSession_bind_error hput]
      exact .unsaved hget hput
    · rw [Action.onSession_bind_ok hput]
      exact .saved hget hput

theorem exists_sub?_of_prune_ok {s t : Session σ} {kept : List Json}
    (h : (prune docs retention device now).onSession s = (.ok kept, t)) :
    ∃ horizon, now.sub? retention = some horizon := by
  obtain ⟨records, _, -, hkeep⟩ := Action.exists_of_onSession_bind h
  obtain ⟨horizon, _, hhorizon, -⟩ := Action.exists_of_onSession_bind hkeep
  cases hs : now.sub? retention with
  | none =>
    rw [hs] at hhorizon
    cases hhorizon
  | some horizon => exact ⟨horizon, rfl⟩

/-- A history that was pruned is not changed by a pruning at an earlier time, even if that fails. -/
theorem prune_earlier (hdocs : docs.IsAtomic sound document?) {before : Instant}
    (hnow : now.sub? retention = some horizon) (hleap : ¬ now.isLeap) (hbefore : ¬ before.isLeap)
    (hle : before ≤ now) {t : Session σ} {kept : List Json}
    (ht : pruned device horizon documents = (kept, document? t.stores)) :
    document? ((prune docs retention device before).onSession t).2.stores = document? t.stores ∧
      ∀ kept', ((prune docs retention device before).onSession t).1 = .ok kept' →
        kept' = kept := by
  rcases hrun : (prune docs retention device before).onSession t with ⟨stop | kept', u⟩
  · exact ⟨isClean_prune hdocs device t hrun, nofun⟩
  · -- an earlier horizon may lie outside the calendar, but then the pruning has failed
    obtain ⟨earlier, hearlier⟩ := exists_sub?_of_prune_ok hrun
    have hhorizon : earlier ≤ horizon :=
      Instant.sub?_le_sub?_of_le hbefore hleap hle hearlier hnow
    have hagain : pruned device earlier (pruned device horizon documents).2 =
        pruned device horizon documents := pruned_pruned_of_ge hhorizon
    rw [ht, (performs_prune hdocs device hearlier).ok t hrun] at hagain
    obtain ⟨rfl, hkept⟩ := Prod.mk.inj hagain
    exact ⟨hkept, fun kept h => by cases h; rfl⟩

/-- Where no call fails, an ingestion comes to the same as an appending and a pruning. Where one of
its calls fails, its failure is that of the ingestion, and no document changes. A reading that was
appended stays where the pruning fails. Off leap seconds a pruning at an earlier time changes
nothing, and of two times of pruning the later one counts, whichever comes first. -/
theorem ingest_atomic (hdocs : docs.IsAtomic sound document?)
    (hnow : now.sub? retention = some horizon) (device : String) (reading : Reading) :
    Agree sound document? (ingest docs retention device reading now)
        (append docs device reading >>= fun _ => prune docs retention device now) ∧
      (∀ s, EndsIngestion docs horizon device reading s
        ((ingest docs retention device reading now).onSession s)) ∧
      IsClean document? (ingest docs retention device reading now) ∧
      (∀ {s t u : Session σ} {stop : Stop StoreFailure},
        (append docs device reading).onSession s = (.ok (), t) →
        (prune docs retention device now).onSession t = (.error stop, u) →
          document? u.stores = (appended device reading (document? s.stores)).2) ∧
      (¬ now.isLeap → ∀ {before : Instant}, ¬ before.isLeap → before ≤ now →
        ∀ {s t : Session σ} {kept : List Json},
          (ingest docs retention device reading now).onSession s = (.ok kept, t) ∨
              (prune docs retention device now).onSession s = (.ok kept, t) →
            document? ((prune docs retention device before).onSession t).2.stores =
                document? t.stores ∧
              ∀ kept', ((prune docs retention device before).onSession t).1 = .ok kept' →
                kept' = kept) ∧
      ∀ {before after : Instant}, ¬ before.isLeap → ¬ after.isLeap → before ≤ after →
        before.sub? retention ≠ none → after.sub? retention ≠ none →
          Agree sound document?
              (prune docs retention device before >>= fun _ => prune docs retention device after)
              (prune docs retention device after) ∧
            Agree sound document?
              (prune docs retention device after >>= fun _ => prune docs retention device before)
              (prune docs retention device after) := by
  have hingest := performs_ingest hdocs device reading hnow
  have happend := performs_append hdocs device reading
  have hprune := performs_prune hdocs device hnow
  refine ⟨hingest.agree (happend.bind fun _ => hprune) fun _ => ingested_eq,
    ingest_endsIngestion docs device reading hnow, isClean_ingest hdocs device reading, ?_, ?_, ?_⟩
  · intro s t u stop ht hu
    rw [happend.ok s ht]
    exact isClean_prune hdocs device t hu
  · intro hleap before hbefore hle s t kept ht
    rcases ht with ht | ht
    · exact prune_earlier hdocs hnow hleap hbefore hle (ingested_eq.symm.trans (hingest.ok s ht))
    · exact prune_earlier hdocs hnow hleap hbefore hle (hprune.ok s ht)
  · intro before after hbefore hafter hle hb ha
    obtain ⟨earlier, hearlier⟩ := Option.ne_none_iff_exists'.mp hb
    obtain ⟨later, hlater⟩ := Option.ne_none_iff_exists'.mp ha
    have hhorizon : earlier ≤ later :=
      Instant.sub?_le_sub?_of_le hbefore hafter hle hearlier hlater
    have hfirst := performs_prune hdocs device hearlier
    have hsecond := performs_prune hdocs device hlater
    exact ⟨(hfirst.bind fun _ => hsecond).agree hsecond fun _ => pruned_pruned_of_le hhorizon,
      (hsecond.bind fun _ => hfirst).agree hsecond fun _ => pruned_pruned_of_ge hhorizon⟩

/-- A session on empty stores that refuse the fourth call. -/
def refusingPrune : Session Memory where
  stores := { Memory.empty with
    link := { faults := fun n => if n = 3 then some (.refuse "down") else none, calls := [] } }
  elapsed := 0
  deadline := none

/-- A reading that was appended stays in a history that could not be pruned. -/
theorem ingest_atomic_of_refusingPrune :
    let docs := Memory.documentStore.timed 1000
    let now := (levelAt 240).timestamp
    ∃ horizon t u, now.sub? (.ofSeconds 300) = some horizon ∧
      EndsIngestion docs horizon "boiler" (levelAt 240) refusingPrune
        ((ingest docs (.ofSeconds 300) "boiler" (levelAt 240) now).onSession refusingPrune) ∧
      (append docs "boiler" (levelAt 240)).onSession refusingPrune = (.ok (), t) ∧
      (prune docs (.ofSeconds 300) "boiler" now).onSession t =
        (.error (.failed (.backend "down")), u) ∧
      u.stores.document? (Key.history "boiler") = some (.array [(levelAt 240).toJson]) := by
  intro docs now
  have hcal : now.sub? (.ofSeconds 300) ≠ none := by decide +kernel
  obtain ⟨horizon, hnow⟩ := Option.ne_none_iff_exists'.mp hcal
  have hall := ingest_atomic (Memory.isAtomic_documentStore.timed 1000) hnow "boiler" (levelAt 240)
  rcases happend : (append docs "boiler" (levelAt 240)).onSession refusingPrune with ⟨r, t⟩
  rcases hprune : (prune docs (.ofSeconds 300) "boiler" now).onSession t with ⟨r', u⟩
  have hr : r = .ok () := by
    cases happend
    rfl
  have hr' : r' = .error (.failed (.backend "down")) := by
    cases happend
    cases hprune
    rfl
  subst hr hr'
  refine ⟨horizon, t, u, hnow, hall.2.1 refusingPrune, rfl, hprune, ?_⟩
  rw [hall.2.2.2.1 happend hprune]
  rfl

end History

end TriggerWatch
