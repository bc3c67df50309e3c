import TriggerWatch.Proofs.Cells
import TriggerWatch.Proofs.Dictionaries
import TriggerWatch.Proofs.Keys
import TriggerWatch.Store.Postgres

/-!
# Stores of reported state

The reported state of a device may be kept in memory, in a document of memory or of a Redis server,
or in a row of a table. All of them answer the same: a device that was never updated has no reported
state, and that of any other is the union of all attributes written for it, in which later ones win.
Where the documents are kept in a store with those of histories, fires and trails, neither side sees
the other one, for their keys differ.

## Main definitions

- `Shadows.Call`, `Shadows.Answer` — calls of a store of reported state and their answers
- `Shadows.reportedAfter` — the reported state of a device after calls
- `Shadows.answered` — the answers that every store gives
- `Shadows.Simulates` — a store keeps the reported state of every device
- `RecordCall` — calls on histories, fires and trails
- `Shadows.AreApart` — calls on reported state and those calls do not see each other

## Main statements

- `Shadows.get?_of_reportedAfter` — the last update that binds a name wins
- `Shadows.Simulates.transcript_eq` — a store that keeps the reported state gives these answers
- `Shadows.ofDocuments_simulates`, `Memory.shadowStore_simulates`, `Postgres.shadowStore_simulates` —
  the stores
- `Shadows.stores_interchangeable` — all stores answer the same, and calls on other documents of a
  store do not matter
-/

namespace TriggerWatch

variable {σ γ : Type}

namespace Shadows

/-- A call of a store of reported state. -/
inductive Call where
  | update (device : String) (attributes : Dict Json)
  | get (device : String)

/-- What a call of a store of reported state answers. -/
inductive Answer where
  | updated
  | reported (state : Option (Dict Json))

/-- Make a call. -/
def Call.perform (shadows : Shadows σ) : Call → Action σ StoreFailure Answer
  | .update device attributes => do
    shadows.update device attributes
    return .updated
  | .get device => return .reported (← shadows.get device)

/-! ### What all stores answer -/

/-- The attributes written for a device, update by update. -/
def updatesOf (device : String) (calls : List Call) : List (Dict Json) :=
  calls.filterMap fun call =>
    match call with
    | .update other attributes => if other = device then some attributes else none
    | .get _ => none

/-- The reported state of a device after calls on an empty store: none if it was never updated, and
the union of all attributes written for it otherwise, in which later ones win. -/
def reportedAfter (calls : List Call) (device : String) : Option (Dict Json) :=
  match updatesOf device calls with
  | [] => none
  | updates => some (updates.foldl Dict.extend [])

/-- What a call answers after others. -/
def Call.answerAfter (calls : List Call) : Call → Answer
  | .update _ _ => .updated
  | .get device => .reported (reportedAfter calls device)

/-- Calls with the answers that every store gives. -/
def answered (calls : List Call) : List (Call × Except (Stop StoreFailure) Answer) :=
  calls.mapIdx fun i call => (call, .ok (call.answerAfter (calls.take i)))

/-- The state of a device with attributes merged into it. -/
def merged (view : String → Option (Dict Json)) (device : String) (attributes : Dict Json) :
    Dict Json :=
  ((view device).getD []).extend attributes

/-- The states of all devices after an update. -/
def updatedAt (view : String → Option (Dict Json)) (device : String) (attributes : Dict Json)
    (other : String) : Option (Dict Json) :=
  if device = other then some (merged view device attributes) else view other

/-- The states that updates lead to, one after the other. -/
def statesWritten (past : List Call) : List Call → List (Dict Json)
  | [] => []
  | .update device attributes :: rest =>
    merged (reportedAfter past) device attributes ::
      statesWritten (past ++ [.update device attributes]) rest
  | .get device :: rest => statesWritten (past ++ [.get device]) rest

theorem updatesOf_append (device : String) (calls calls' : List Call) :
    updatesOf device (calls ++ calls') = updatesOf device calls ++ updatesOf device calls' :=
  List.filterMap_append

theorem updatesOf_update (device other : String) (attributes : Dict Json) :
    updatesOf other [.update device attributes] = if device = other then [attributes] else [] := by
  rw [updatesOf, List.filterMap_cons]
  by_cases hd : device = other
  · simp only [hd, if_true, List.filterMap_nil]
  · simp only [hd, if_false, List.filterMap_nil]

theorem mem_updatesOf {device : String} {attributes : Dict Json} {calls : List Call} :
    attributes ∈ updatesOf device calls ↔ .update device attributes ∈ calls := by
  rw [updatesOf, List.mem_filterMap]
  constructor
  · rintro ⟨call, hcall, h⟩
    cases call with
    | get _ => cases h
    | update other written =>
      simp only at h
      split at h
      · next hd =>
        cases h
        exact hd ▸ hcall
      · cases h
  · intro h
    exact ⟨_, h, if_pos rfl⟩

/-- A device has a reported state as soon as it was updated, be it with no attributes. -/
theorem reportedAfter_eq_none_iff {calls : List Call} {device : String} :
    reportedAfter calls device = none ↔ ∀ attributes, .update device attributes ∉ calls := by
  have hnil : updatesOf device calls = [] ↔ ∀ attributes, .update device attributes ∉ calls := by
    rw [List.eq_nil_iff_forall_not_mem]
    exact forall_congr' fun attributes => not_congr mem_updatesOf
  rw [← hnil, reportedAfter]
  cases updatesOf device calls with
  | nil => exact ⟨fun _ => rfl, fun _ => rfl⟩
  | cons first rest => simp

theorem eq_of_reportedAfter {calls : List Call} {device : String} {state : Dict Json}
    (h : reportedAfter calls device = some state) :
    state = (updatesOf device calls).foldl Dict.extend [] := by
  rw [reportedAfter] at h
  split at h
  · cases h
  · exact (Option.some.inj h).symm

theorem isSorted_of_reportedAfter {calls : List Call} {device : String} {state : Dict Json}
    (h : reportedAfter calls device = some state) : state.IsSorted := by
  rw [eq_of_reportedAfter h]
  exact List.foldlRecOn _ _ Dict.isSorted_nil fun d hd e _ => Dict.isSorted_extend hd e

/-- The last update that binds a name wins. -/
theorem get?_of_reportedAfter {calls : List Call} {device : String} {state : Dict Json}
    (h : reportedAfter calls device = some state)
    (hsorted : ∀ attributes, .update device attributes ∈ calls → attributes.IsSorted)
    (name : String) :
    state.get? name =
      (updatesOf device calls).reverse.findSome? fun attributes => attributes.get? name := by
  have hupdates : ∀ attributes ∈ updatesOf device calls, attributes.IsSorted :=
    fun attributes hmem => hsorted attributes (mem_updatesOf.mp hmem)
  have hunion := Dict.get?_foldl_extend hupdates [] name
  rw [Dict.get?_nil, Option.or_none] at hunion
  rw [eq_of_reportedAfter h, hunion]

theorem reportedAfter_append_get (past : List Call) (device : String) :
    reportedAfter (past ++ [.get device]) = reportedAfter past := by
  funext other
  have hupdates : updatesOf other (past ++ [.get device]) = updatesOf other past := by
    rw [updatesOf_append]
    exact List.append_nil _
  rw [reportedAfter, hupdates]
  rfl

/-- An update merges its attributes into the state of its device. -/
theorem reportedAfter_append_update (past : List Call) (device : String)
    (attributes : Dict Json) :
    reportedAfter (past ++ [.update device attributes]) =
      updatedAt (reportedAfter past) device attributes := by
  funext other
  rw [reportedAfter, updatesOf_append, updatesOf_update, updatedAt]
  by_cases hd : device = other
  · rw [if_pos hd, if_pos hd, hd, merged, reportedAfter]
    cases updatesOf other past with
    | nil => rfl
    | cons first rest => exact congrArg some List.foldl_append
  · rw [if_neg hd, if_neg hd, List.append_nil]
    rfl

/-! ### Stores that keep the reported state -/

/-- A store keeps the reported state of every device: a state of the stores shows it, a call to
fetch it answers with it, and an update merges attributes into it, provided that the result fits. -/
structure Simulates (shadows : Shadows σ) (reports : σ → (String → Option (Dict Json)) → Prop)
    (fits : Dict Json → Prop) : Prop where
  get : ∀ {s : Session σ} {view} (device : String), reports s.stores view →
    ∃ t, (shadows.get device).onSession s = (.ok (view device), t) ∧ reports t.stores view
  update : ∀ {s : Session σ} {view} (device : String) (attributes : Dict Json),
    reports s.stores view → fits (merged view device attributes) →
    ∃ t, (shadows.update device attributes).onSession s = (.ok (), t) ∧
      reports t.stores (updatedAt view device attributes)

/-- A store that keeps the reported state answers as every store does. -/
theorem Simulates.transcript_append {shadows : Shadows σ}
    {reports : σ → (String → Option (Dict Json)) → Prop} {fits : Dict Json → Prop}
    (h : shadows.Simulates reports fits) {calls past : List Call} {s : Session σ}
    (hs : reports s.stores (reportedAfter past))
    (hfits : ∀ state ∈ statesWritten past calls, fits state) :
    transcript (Call.perform shadows) calls s =
      calls.mapIdx fun i call => (call, .ok (call.answerAfter (past ++ calls.take i))) := by
  -- the past grows call by call, and the stores show all the while the state that it leads to
  induction calls generalizing past s with
  | nil => rfl
  | cons call rest ih =>
    have htake : ∀ i, past ++ (call :: rest).take (i + 1) = (past ++ [call]) ++ rest.take i := by
      intro i
      rw [List.take_succ_cons, List.append_assoc]
      rfl
    rw [List.mapIdx_cons, transcript]
    simp only [htake, List.take_zero, List.append_nil]
    cases call with
    | get device =>
      obtain ⟨t, hran, ht⟩ := h.get device hs
      have hperform : (Call.perform shadows (.get device)).onSession s =
          (.ok (.reported (reportedAfter past device)), t) := Action.onSession_bind_ok hran
      rw [← reportedAfter_append_get past device] at ht
      rw [hperform, ih ht hfits]
      rfl
    | update device attributes =>
      obtain ⟨hfit, hrest⟩ := List.forall_mem_cons.mp hfits
      obtain ⟨t, hran, ht⟩ := h.update device attributes hs hfit
      have hperform : (Call.perform shadows (.update device attributes)).onSession s =
          (.ok .updated, t) := Action.onSession_bind_ok hran
      rw [← reportedAfter_append_update past device attributes] at ht
      rw [hperform, ih ht hrest]
      rfl

/-- From an empty store on. -/
theorem Simulates.transcript_eq {shadows : Shadows σ}
    {reports : σ → (String → Option (Dict Json)) → Prop} {fits : Dict Json → Prop}
    (h : shadows.Simulates reports fits) {calls : List Call} {s : Session σ}
    (hs : reports s.stores fun _ => none) (hfits : ∀ state ∈ statesWritten [] calls, fits state) :
    transcript (Call.perform shadows) calls s = answered calls := by
  have hreports : reports s.stores (reportedAfter []) := hs
  exact h.transcript_append hreports hfits

/-- Documents of the shadow layout keep the reported state if they are read back as written. -/
theorem ofDocuments_simulates {docs : Documents σ} {sound : σ → Prop} {cell : σ → String → γ}
    {fetched : γ → Except (Stop StoreFailure) (Option Json)} {filled : Json → γ}
    (h : docs.IsCellwise sound cell fetched filled) :
    (ofDocuments docs).Simulates
      (fun m view => sound m ∧ ∀ device,
        fetched (cell m (Key.shadow device)) = .ok ((view device).map Shadow.document))
      fun state => fetched (filled (Shadow.document state)) = .ok (some (Shadow.document state)) where
  get {s view} device hs := by
    obtain ⟨hsound, hcells⟩ := hs
    obtain ⟨t, hran, ht, hcell⟩ := h.get (Key.shadow device) hsound
    rw [hcells device] at hran
    refine ⟨t, (Action.onSession_bind_ok hran).trans ?_, ht, ?_⟩
    · cases view device <;> rfl
    · rw [hcell]
      exact hcells
  update {s view} device attributes hs hfits := by
    obtain ⟨hsound, hcells⟩ := hs
    obtain ⟨t, hran, ht, hcell⟩ := h.get (Key.shadow device) hsound
    rw [hcells device] at hran
    have hstate : Shadow.reportedOf ((view device).map Shadow.document) =
        (view device).getD [] := by
      cases view device <;> rfl
    obtain ⟨u, hput, hu, hcell'⟩ := h.put (Key.shadow device)
      (Shadow.document (merged view device attributes)) ht
    refine ⟨u, (Action.onSession_bind_ok hran).trans ?_, hu, ?_⟩
    · rw [hstate]
      exact hput
    · intro other
      rw [hcell', hcell, updatedAt]
      by_cases hd : device = other
      · rw [if_pos (congrArg Key.shadow hd), if_pos hd]
        exact hfits
      · rw [if_neg fun hk => hd (Key.shadow_inj hk), if_neg hd]
        exact hcells other

end Shadows

/-- The store of reported state in memory. -/
theorem Memory.shadowStore_simulates : Memory.shadowStore.Simulates
    (fun m view => m.link.IsSound ∧ ∀ device, Dict.get? m.reported device = view device)
    fun _ => True where
  get {s view} device hs := by
    obtain ⟨hsound, hrows⟩ := hs
    have hreach := onSession_reach (.getReported device) hsound
    rw [← hrows device]
    exact ⟨_, (Action.onSession_bind_ok hreach).trans rfl, hsound, hrows⟩
  update {s view} device attributes hs _ := by
    obtain ⟨hsound, hrows⟩ := hs
    have hreach := onSession_reach (.updateReported device) hsound
    refine ⟨_, (Action.onSession_bind_ok hreach).trans rfl, hsound, ?_⟩
    intro other
    refine (Dict.get?_insert s.stores.reported device _ other).trans ?_
    rw [Shadows.updatedAt, Shadows.merged, ← hrows device, ← hrows other]

theorem Postgres.onSession_run (statement : Postgres.Statement) {s : Session Postgres}
    (h : s.stores.link.IsSound) : (Postgres.run statement).onSession s =
      (.ok (), { s with stores := { s.stores with link := s.stores.link.record statement } }) :=
  Link.onSession_reach _ _ _ h

/-- The store of reported state in a table. -/
theorem Postgres.shadowStore_simulates : Postgres.shadowStore.Simulates
    (fun p view => p.link.IsSound ∧
      ∀ device, Dict.get? p.rows device = (view device).map Json.object)
    fun _ => True where
  get {s view} device hs := by
    obtain ⟨hsound, hrows⟩ := hs
    have hrun := onSession_run (.select device) hsound
    refine ⟨{ s with stores := { s.stores with link := s.stores.link.record (.select device) } },
      (Action.onSession_bind_ok hrun).trans
        ((Action.onSession_bind_ok (Action.onSession_stores _)).trans ?_), hsound, hrows⟩
    rw [hrows device]
    cases view device <;> rfl
  update {s view} device attributes hs _ := by
    obtain ⟨hsound, hrows⟩ := hs
    have hrun := onSession_run (.upsert device attributes) hsound
    refine ⟨_, (Action.onSession_bind_ok hrun).trans rfl, hsound, ?_⟩
    intro other
    refine (Dict.get?_insert s.stores.rows device _ other).trans ?_
    by_cases hd : device = other
    · have hrow : ((Dict.get? s.stores.rows device).bind Json.members?).getD [] =
          (view device).getD [] := by
        rw [hrows device]
        cases view device <;> rfl
      rw [Shadows.updatedAt, if_pos hd, if_pos hd, Shadows.merged, ← hrow]
      rfl
    · rw [Shadows.updatedAt, if_neg hd, if_neg hd, hrows other]

/-! ### Calls on other documents of the same store -/

/-- A call on the documents that hold histories, fires and trails. -/
inductive RecordCall where
  | append (device : String) (reading : Reading)
  | prune (device : String) (now : Instant)
  | ingest (device : String) (reading : Reading) (now : Instant)
  | load (device : String)
  | suppresses (device trigger : String) (period : Span) (now : Instant)
  | lastFire (device trigger : String)
  | record (device trigger : String) (entry : Trail.Entry)
  | recent (device trigger : String)

/-- What a call on such a document answers. -/
inductive RecordCall.Answer where
  | done
  | records (records : List Json)
  | suppressed (isSuppressed : Bool)
  | lastFire (last : Option Instant)
  | entries (entries : List Trail.Entry)

/-- The retention time, the floor of the waits and the capacity of a trail. -/
structure RecordCall.Limits where
  retention : Span
  floor : Span
  capacity : Nat

namespace RecordCall

/-- Make a call. -/
def perform (docs : Documents σ) (limits : Limits) : RecordCall → Action σ StoreFailure Answer
  | append device reading => do
    History.append docs device reading
    return .done
  | prune device now => return .records (← History.prune docs limits.retention device now)
  | ingest device reading now =>
    return .records (← History.ingest docs limits.retention device reading now)
  | load device => return .records (← History.load docs device)
  | suppresses device trigger period now =>
    return .suppressed (← Cooldown.suppresses docs limits.floor device trigger period now)
  | lastFire device trigger => return .lastFire (← Cooldown.lastFire docs device trigger)
  | record device trigger entry => do
    Trail.record docs limits.capacity device trigger entry
    return .done
  | recent device trigger => return .entries (← Trail.recent docs device trigger)

end RecordCall

/-- Make a call of either side on one document store. -/
def Documents.performShared (docs : Documents σ) (limits : RecordCall.Limits) :
    Shadows.Call ⊕ RecordCall → Action σ StoreFailure (Shadows.Answer ⊕ RecordCall.Answer)
  | .inl call => return .inl (← call.perform (Shadows.ofDocuments docs))
  | .inr call => return .inr (← call.perform docs limits)

/-- A key of reported state. -/
def Key.IsShadow (key : String) : Prop := kindLetter key = kindLetter (shadow "")

section Sharing

variable {docs : Documents σ} {sound : σ → Prop} {cell : σ → String → γ}
variable {fetched : γ → Except (Stop StoreFailure) (Option Json)} {filled : Json → γ}

theorem Shadows.Call.isConfined (h : docs.IsCellwise sound cell fetched filled)
    (call : Shadows.Call) :
    IsConfined sound cell Key.IsShadow (call.perform (Shadows.ofDocuments docs)) := by
  cases call with
  | update device attributes =>
    exact (isConfined_update h (by simp [Key.IsShadow]) attributes).bind fun _ => .pure _
  | get device => exact (isConfined_get h (by simp [Key.IsShadow])).bind fun _ => .pure _

theorem RecordCall.isConfined (h : docs.IsCellwise sound cell fetched filled)
    (limits : Limits) (call : RecordCall) :
    IsConfined sound cell (fun key => ¬ Key.IsShadow key) (call.perform docs limits) := by
  have hhistory : ∀ device, ¬ Key.IsShadow (Key.history device) := by simp [Key.IsShadow]
  have hcooldown : ∀ device trigger, ¬ Key.IsShadow (Key.cooldown device trigger) := by
    simp [Key.IsShadow]
  have htrail : ∀ device trigger, ¬ Key.IsShadow (Key.trail device trigger) := by
    simp [Key.IsShadow]
  cases call with
  | append device reading =>
    exact (History.isConfined_append h (hhistory device) reading).bind fun _ => .pure _
  | prune device now =>
    exact (History.isConfined_prune h (hhistory device) _ now).bind fun _ => .pure _
  | ingest device reading now =>
    exact (History.isConfined_ingest h (hhistory device) _ reading now).bind fun _ => .pure _
  | load device => exact (History.isConfined_load h (hhistory device)).bind fun _ => .pure _
  | suppresses device trigger period now =>
    exact (Cooldown.isConfined_suppresses h (hcooldown device trigger) _ period now).bind
      fun _ => .pure _
  | lastFire device trigger =>
    exact (Cooldown.isConfined_lastFire h (hcooldown device trigger)).bind fun _ => .pure _
  | record device trigger entry =>
    exact (Trail.isConfined_record h (htrail device trigger) _ entry).bind fun _ => .pure _
  | recent device trigger =>
    exact (Trail.isConfined_recent h (htrail device trigger)).bind fun _ => .pure _

/-- Of calls of both sides those of one side have the answers that they have without those of the
other side. -/
def Shadows.AreApart (perform : Shadows.Call ⊕ RecordCall →
    Action σ StoreFailure (Shadows.Answer ⊕ RecordCall.Answer))
    (calls : List (Shadows.Call ⊕ RecordCall)) (s : Session σ) : Prop :=
  (transcript perform calls s).filter (fun entry => entry.1.isLeft) =
      transcript perform (calls.filter Sum.isLeft) s ∧
    (transcript perform calls s).filter (fun entry => entry.1.isRight) =
      transcript perform (calls.filter Sum.isRight) s

theorem Documents.IsCellwise.areApart (h : docs.IsCellwise sound cell fetched filled)
    (limits : RecordCall.Limits) (calls : List (Shadows.Call ⊕ RecordCall)) {s : Session σ}
    (hs : sound s.stores) : Shadows.AreApart (docs.performShared limits) calls s := by
  have hstate : ∀ call : Shadows.Call,
      IsConfined sound cell Key.IsShadow (docs.performShared limits (.inl call)) :=
    fun call => (call.isConfined h).bind fun _ => .pure _
  have hrecord : ∀ call : RecordCall,
      IsConfined sound cell (fun key => ¬ Key.IsShadow key)
        (docs.performShared limits (.inr call)) :=
    fun call => (call.isConfined h limits).bind fun _ => .pure _
  have hapart : ∀ key, Key.IsShadow key → ¬ ¬ Key.IsShadow key := fun _ => not_not_intro
  have hapart' : ∀ key, ¬ Key.IsShadow key → ¬ Key.IsShadow key := fun _ => id
  constructor
  · refine filter_transcript cell hapart ?_ ?_ calls hs hs fun _ _ => rfl
    · intro call hcall
      cases call with
      | inl call => exact hstate call
      | inr call => cases hcall
    · intro call hcall
      cases call with
      | inl call => cases hcall
      | inr call => exact hrecord call
  · refine filter_transcript cell hapart' ?_ ?_ calls hs hs fun _ _ => rfl
    · intro call hcall
      cases call with
      | inl call => cases hcall
      | inr call => exact hrecord call
    · intro call hcall
      cases call with
      | inl call => exact hstate call
      | inr call => cases hcall

end Sharing

/-! ### Any store will do -/

/-- A shadow document is read back from its text as it was written. -/
def Shadow.IsReadBack (state : Dict Json) : Prop :=
  Json.ofText? (Json.render (document state)) = some (document state)

theorem Redis.fetched_filled {state : Dict Json} (h : Shadow.IsReadBack state) :
    fetched (filled (Shadow.document state)) = .ok (some (Shadow.document state)) := by
  rw [Shadow.IsReadBack] at h
  simp only [filled, fetched, decode_encode, h]

/-- From no reported state on, all stores give the same answers to the same calls: a device that
was never updated has no reported state, and that of any other binds each name as the last update
that bound it. In a store of documents that is used for histories, fires and trails as well, the
calls of neither side change what the other side is answered. -/
theorem Shadows.stores_interchangeable (calls : List Shadows.Call) (keyPrefix : String) :
    (∀ s : Session Memory, s.stores.link.IsSound → s.stores.reported = [] →
      transcript (Call.perform Memory.shadowStore) calls s = answered calls) ∧
    (∀ s : Session Memory, s.stores.link.IsSound → s.stores.documents = [] →
      transcript (Call.perform (ofDocuments Memory.documentStore)) calls s = answered calls) ∧
    (∀ s : Session Redis, s.stores.link.IsSound → s.stores.keys = [] →
      (∀ state ∈ statesWritten [] calls, Shadow.IsReadBack state) →
      transcript (Call.perform (ofDocuments (Redis.documentStore keyPrefix))) calls s =
        answered calls) ∧
    (∀ s : Session Postgres, s.stores.link.IsSound → s.stores.rows = [] →
      transcript (Call.perform Postgres.shadowStore) calls s = answered calls) ∧
    (∀ device,
      (reportedAfter calls device = none ↔ ∀ attributes, .update device attributes ∉ calls) ∧
      ∀ state, reportedAfter calls device = some state →
        (∀ attributes, .update device attributes ∈ calls → attributes.IsSorted) →
        state.IsSorted ∧ ∀ name, state.get? name =
          (updatesOf device calls).reverse.findSome? fun attributes => attributes.get? name) ∧
    (∀ (limits : RecordCall.Limits) (both : List (Shadows.Call ⊕ RecordCall)),
      (∀ s : Session Memory, s.stores.link.IsSound →
        AreApart (Memory.documentStore.performShared limits) both s) ∧
      ∀ s : Session Redis, s.stores.link.IsSound →
        AreApart ((Redis.documentStore keyPrefix).performShared limits) both s) := by
  refine ⟨?_, ?_, ?_, ?_, ?_, ?_⟩
  · intro s hsound hempty
    refine Memory.shadowStore_simulates.transcript_eq ⟨hsound, ?_⟩ fun _ _ => trivial
    intro device
    rw [hempty]
    rfl
  · intro s hsound hempty
    refine (ofDocuments_simulates Memory.isCellwise_documentStore).transcript_eq ⟨hsound, ?_⟩
      fun _ _ => rfl
    intro device
    rw [hempty]
    rfl
  · intro s hsound hempty hread
    refine (ofDocuments_simulates (Redis.isCellwise_documentStore keyPrefix)).transcript_eq
      ⟨hsound, ?_⟩ fun state hstate => Redis.fetched_filled (hread state hstate)
    intro device
    rw [hempty]
    rfl
  · intro s hsound hempty
    refine Postgres.shadowStore_simulates.transcript_eq ⟨hsound, ?_⟩ fun _ _ => trivial
    intro device
    rw [hempty]
    rfl
  · intro device
    refine ⟨reportedAfter_eq_none_iff, ?_⟩
    intro state hstate hsorted
    exact ⟨isSorted_of_reportedAfter hstate, get?_of_reportedAfter hstate hsorted⟩
  · intro limits both
    constructor
    · intro s hsound
      exact Memory.isCellwise_documentStore.areApart limits both hsound
    · intro s hsound
      exact (Redis.isCellwise_documentStore keyPrefix).areApart limits both hsound

/-- Updates of two devices, one of them without attributes and one with a value of another kind. -/
def Shadows.mixedCalls : List Shadows.Call :=
  [.get "boiler", .update "boiler" [("level", .string "low")], .update "pump" [],
    .get "pump", .update "boiler" [("level", .array [])], .get "boiler"]

/-- Whether a document holds the attributes of a device, as far as those calls write any. -/
def Shadow.shows : Dict Json → Option Json → Bool
  | [], some (.object [("state", .object [("reported", .object [])])]) => true
  | [("level", .string text)],
      some (.object [("state", .object [("reported", .object [("level", .string other)])])]) =>
    text = other
  | [("level", .array [])],
      some (.object [("state", .object [("reported", .object [("level", .array [])])])]) => true
  | _, _ => false

theorem Shadow.eq_of_shows {state : Dict Json} {found : Option Json}
    (h : shows state found = true) : found = some (document state) := by
  unfold shows at h
  split at h
  · rfl
  · rw [of_decide_eq_true h]
    rfl
  · rfl
  · cases h

theorem Shadows.stores_interchangeable_of_mixedCalls :
    (∀ state ∈ statesWritten [] mixedCalls, Shadow.IsReadBack state) ∧
      transcript (Call.perform (ofDocuments (Redis.documentStore "watch:"))) mixedCalls
        { stores := { link := Link.sound, keys := [] }, elapsed := 0, deadline := none } =
          answered mixedCalls ∧
      reportedAfter mixedCalls "pump" = some [] ∧
      reportedAfter mixedCalls "boiler" = some [("level", .array [])] := by
  have hread : ∀ state ∈ statesWritten [] mixedCalls, Shadow.IsReadBack state := by
    have hstates : statesWritten [] mixedCalls =
        [[("level", .string "low")], [], [("level", .array [])]] := rfl
    rw [hstates]
    simp only [List.forall_mem_cons]
    exact ⟨Shadow.eq_of_shows (by decide +kernel), Shadow.eq_of_shows (by decide +kernel),
      Shadow.eq_of_shows (by decide +kernel), by simp⟩
  have hstores := stores_interchangeable mixedCalls "watch:"
  exact ⟨hread, hstores.2.2.1 _ Link.isSound_sound rfl hread, rfl, rfl⟩

end TriggerWatch
