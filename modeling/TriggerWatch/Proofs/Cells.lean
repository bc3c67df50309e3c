import TriggerWatch.Cooldown
import TriggerWatch.History
import TriggerWatch.Proofs.Behavior
import TriggerWatch.Store.Memory
import TriggerWatch.Store.Redis
import TriggerWatch.Trail

/-!
# Document stores, cell by cell

A document store keeps what is under a key in a cell of its own. A fetch tells what is in the cell
of its key, and a put fills this cell whatever was in it. An action made of such calls sees and
changes the cells of its keys only. Two actions with different keys therefore never meet, and of
calls in any order those on one set of keys have the answers that they have without the others.

## Main definitions

- `Link.IsSound` — a link on which no call meets a fault
- `Documents.IsCellwise` — a document store keeps documents in cells
- `IsConfined` — an action sees and changes certain cells only
- `transcript` — calls in sequence with their answers

## Main statements

- `Memory.isCellwise_documentStore`, `Redis.isCellwise_documentStore` — the two document stores
- `IsConfined.bind` — the rule for actions in sequence
- `History.isConfined_ingest` and its like — the calls on histories, fires and trails
- `filter_transcript` — the calls on one set of keys do not see the others
-/

namespace TriggerWatch

variable {σ γ ε α β κ : Type}

/-! ### Links without faults -/

/-- No call over a link meets a fault. -/
def Link.IsSound (l : Link κ) : Prop := ∀ n, l.faults n = none

theorem Link.isSound_sound : (Link.sound : Link κ).IsSound := fun _ => rfl

theorem Action.onSession_stores (s : Session σ) :
    (Action.stores : Action σ ε σ).onSession s = (.ok s.stores, s) := rfl

/-- A call over a sound link is recorded and does nothing else. -/
theorem Link.onSession_reach {link : σ → Link κ} (setLink : Link κ → σ → σ) (refused : String → ε)
    (call : κ) {s : Session σ} (h : (link s.stores).IsSound) :
    (Link.reach link setLink refused call).onSession s =
      (.ok (), { s with stores := setLink ((link s.stores).record call) s.stores }) := by
  have hnext : (link s.stores).next = none := h _
  show (Link.meet refused (link s.stores).next).onSession _ = _
  rw [hnext]
  rfl

theorem Memory.onSession_reach (call : Memory.Call) {s : Session Memory}
    (h : s.stores.link.IsSound) : (Memory.reach call).onSession s =
      (.ok (), { s with stores := { s.stores with link := s.stores.link.record call } }) :=
  Link.onSession_reach _ _ _ h

theorem Redis.onSession_send (command : Redis.Command) {s : Session Redis}
    (h : s.stores.link.IsSound) : (Redis.send command).onSession s =
      (.ok (), { s with stores := { s.stores with link := s.stores.link.record command } }) :=
  Link.onSession_reach _ _ _ h

/-! ### Cells -/

/-- A document store keeps documents in cells, as long as its state is sound: a fetch answers from
the cell of its key, and a put fills this cell. Neither touches another cell. -/
structure Documents.IsCellwise (docs : Documents σ) (sound : σ → Prop) (cell : σ → String → γ)
    (fetched : γ → Except (Stop StoreFailure) (Option Json)) (filled : Json → γ) : Prop where
  get : ∀ {s : Session σ} (key : String), sound s.stores →
    ∃ t, (docs.get key).onSession s = (fetched (cell s.stores key), t) ∧ sound t.stores ∧
      cell t.stores = cell s.stores
  put : ∀ {s : Session σ} (key : String) (document : Json), sound s.stores →
    ∃ t, (docs.put key document).onSession s = (.ok (), t) ∧ sound t.stores ∧
      ∀ other, cell t.stores other = if key = other then filled document else cell s.stores other

/-- The cells of the documents in memory. -/
theorem Memory.isCellwise_documentStore : Memory.documentStore.IsCellwise
    (fun m => m.link.IsSound) (fun m => Dict.get? m.documents) .ok some where
  get {s} key hs := by
    have hreach := onSession_reach (.get key) hs
    exact ⟨_, (Action.onSession_bind_ok hreach).trans rfl, hs, rfl⟩
  put {s} key document hs := by
    have hreach := onSession_reach (.put key) hs
    exact ⟨_, (Action.onSession_bind_ok hreach).trans rfl, hs,
      Dict.get?_insert s.stores.documents key document⟩

namespace Redis

/-- What a fetch answers from the value under a prefixed key. -/
def fetched : Option Value → Except (Stop StoreFailure) (Option Json)
  | none => .ok none
  | some (.list _) => .error (.failed wrongKind)
  | some (.string bytes) =>
    match decode bytes with
    | none => .error (.failed (.redis "the reply is no text"))
    | some text =>
      match Json.ofText? text with
      | none => .error (.failed (.serialization "the stored text is no document"))
      | some document => .ok (some document)

def filled (document : Json) : Option Value := some (.string (encode (Json.render document)))

/-- What a server answers to a command that fetches a text. -/
theorem onSession_get {s t : Session Redis} {key : String}
    (h : (send (.get key)).onSession s = (.ok (), t)) :
    (get key).onSession s = (match Dict.get? t.stores.keys key with
      | none => (.ok none, t)
      | some (.list _) => (.error (.failed wrongKind), t)
      | some (.string bytes) =>
        match decode bytes with
        | none => (.error (.failed (.redis "the reply is no text")), t)
        | some text => (.ok (some text), t)) := by
  refine (Action.onSession_bind_ok h).trans
    ((Action.onSession_bind_ok (Action.onSession_stores t)).trans ?_)
  cases Dict.get? t.stores.keys key with
  | none => rfl
  | some value =>
    cases value with
    | list items => rfl
    | string bytes =>
      simp only [textOf]
      cases decode bytes with
      | none => rfl
      | some text => rfl

theorem onSession_getDocument {s t : Session Redis} {keyPrefix key : String}
    (h : (send (.get (keyPrefix ++ key))).onSession s = (.ok (), t)) :
    ((documentStore keyPrefix).get key).onSession s =
      (fetched (Dict.get? t.stores.keys (keyPrefix ++ key)), t) := by
  have hget := onSession_get h
  cases hcell : Dict.get? t.stores.keys (keyPrefix ++ key) with
  | none =>
    rw [hcell] at hget
    exact Action.onSession_bind_ok hget
  | some value =>
    rw [hcell] at hget
    cases value with
    | list items => exact Action.onSession_bind_error hget
    | string bytes =>
      simp only [fetched] at hget ⊢
      cases htext : decode bytes with
      | none =>
        rw [htext] at hget
        exact Action.onSession_bind_error hget
      | some text =>
        rw [htext] at hget
        refine (Action.onSession_bind_ok hget).trans ?_
        show (some <$> documentOf text).onSession t = _
        simp only [documentOf]
        cases Json.ofText? text with
        | none => rfl
        | some document => rfl

/-- The cells of the documents on a Redis server. -/
theorem isCellwise_documentStore (keyPrefix : String) : (documentStore keyPrefix).IsCellwise
    (fun r => r.link.IsSound) (fun r key => Dict.get? r.keys (keyPrefix ++ key)) fetched
    filled where
  get {s} key hs := by
    have hsend := onSession_send (.get (keyPrefix ++ key)) hs
    have hget := onSession_getDocument hsend
    exact ⟨_, hget, hs, rfl⟩
  put {s} key document hs := by
    have hsend := onSession_send (.set (keyPrefix ++ key) (Json.render document)) hs
    refine ⟨_, (Action.onSession_bind_ok hsend).trans rfl, hs, ?_⟩
    intro other
    refine (Dict.get?_insert s.stores.keys (keyPrefix ++ key) _ (keyPrefix ++ other)).trans ?_
    by_cases hk : key = other
    · rw [if_pos hk, if_pos (congrArg _ hk)]
      rfl
    · rw [if_neg hk, if_neg fun he => hk ((String.append_right_inj _).mp he)]

end Redis

/-! ### Confined actions -/

/-- An action sees and changes certain cells only: it leaves all other cells alone, and between two
sound states that agree on these cells its result is the same and the cells agree afterwards. -/
structure IsConfined (sound : σ → Prop) (cell : σ → String → γ) (keys : String → Prop)
    (a : Action σ ε α) : Prop where
  staysSound : ∀ {s : Session σ}, sound s.stores → sound (a.onSession s).2.stores
  outside : ∀ {s : Session σ}, sound s.stores → ∀ key, ¬ keys key →
    cell (a.onSession s).2.stores key = cell s.stores key
  inside : ∀ {s s' : Session σ}, sound s.stores → sound s'.stores →
    (∀ key, keys key → cell s.stores key = cell s'.stores key) →
    (a.onSession s).1 = (a.onSession s').1 ∧
      ∀ key, keys key → cell (a.onSession s).2.stores key = cell (a.onSession s').2.stores key

namespace IsConfined

variable {sound : σ → Prop} {cell : σ → String → γ} {keys keys' : String → Prop}

/-- An action that does nothing to the stores and ends with the same result from everywhere. -/
theorem still {a : Action σ ε α} (r : Except (Stop ε) α) (ha : ∀ s, a.onSession s = (r, s)) :
    IsConfined sound cell keys a where
  staysSound {s} hs := by rwa [ha s]
  outside {s} hs key hk := by rw [ha s]
  inside {s s'} hs hs' hcells := by
    rw [ha s, ha s']
    exact ⟨rfl, hcells⟩

theorem pure (x : α) : IsConfined (ε := ε) sound cell keys (Pure.pure x) :=
  still (.ok x) fun _ => rfl

theorem inCalendar (x : Option α) :
    IsConfined sound cell keys (Action.inCalendar x : Action σ ε α) := by
  cases x with
  | none => exact still (.error .outsideCalendar) fun _ => rfl
  | some x => exact still (.ok x) fun _ => rfl

theorem bind {a : Action σ ε α} {f : α → Action σ ε β} (ha : IsConfined sound cell keys a)
    (hf : ∀ x, IsConfined sound cell keys (f x)) : IsConfined sound cell keys (a >>= f) where
  staysSound {s} hs := by
    have hsound := ha.staysSound hs
    rcases h : a.onSession s with ⟨stop | x, t⟩
    · rw [h] at hsound
      rwa [Action.onSession_bind_error h]
    · rw [h] at hsound
      rw [Action.onSession_bind_ok h]
      exact (hf x).staysSound hsound
  outside {s} hs key hk := by
    have hsound := ha.staysSound hs
    have houtside := ha.outside hs key hk
    rcases h : a.onSession s with ⟨stop | x, t⟩
    · rw [h] at houtside
      rwa [Action.onSession_bind_error h]
    · rw [h] at hsound houtside
      rw [Action.onSession_bind_ok h]
      exact ((hf x).outside hsound key hk).trans houtside
  inside {s s'} hs hs' hcells := by
    have hsound := ha.staysSound hs
    have hsound' := ha.staysSound hs'
    obtain ⟨hresult, hafter⟩ := ha.inside hs hs' hcells
    -- both runs end the first action in the same way, and go on from cells that agree
    rcases h : a.onSession s with ⟨r, t⟩
    rcases h' : a.onSession s' with ⟨r', t'⟩
    rw [h, h'] at hresult hafter
    rw [h] at hsound
    rw [h'] at hsound'
    cases hresult
    cases r with
    | error stop =>
      rw [Action.onSession_bind_error h, Action.onSession_bind_error h']
      exact ⟨rfl, hafter⟩
    | ok x =>
      rw [Action.onSession_bind_ok h, Action.onSession_bind_ok h']
      exact (hf x).inside hsound hsound' hafter

end IsConfined

/-! ### Calls on documents -/

section Calls

variable {docs : Documents σ} {sound : σ → Prop} {cell : σ → String → γ} {keys : String → Prop}
variable {fetched : γ → Except (Stop StoreFailure) (Option Json)} {filled : Json → γ}
variable {key : String}

theorem Documents.IsCellwise.isConfined_get
    (h : docs.IsCellwise sound cell fetched filled) (hkey : keys key) :
    IsConfined sound cell keys (docs.get key) where
  staysSound {s} hs := by
    obtain ⟨t, hran, hsound, -⟩ := h.get key hs
    rwa [hran]
  outside {s} hs other hk := by
    obtain ⟨t, hran, -, hcell⟩ := h.get key hs
    rw [hran, hcell]
  inside {s s'} hs hs' hcells := by
    obtain ⟨t, hran, -, hcell⟩ := h.get key hs
    obtain ⟨t', hran', -, hcell'⟩ := h.get key hs'
    rw [hran, hran', hcell, hcell', hcells key hkey]
    exact ⟨rfl, hcells⟩

theorem Documents.IsCellwise.isConfined_put
    (h : docs.IsCellwise sound cell fetched filled) (hkey : keys key) (document : Json) :
    IsConfined sound cell keys (docs.put key document) where
  staysSound {s} hs := by
    obtain ⟨t, hran, hsound, -⟩ := h.put key document hs
    rwa [hran]
  outside {s} hs other hk := by
    obtain ⟨t, hran, -, hcell⟩ := h.put key document hs
    have hne : key ≠ other := fun he => hk (he ▸ hkey)
    rw [hran, hcell, if_neg hne]
  inside {s s'} hs hs' hcells := by
    obtain ⟨t, hran, -, hcell⟩ := h.put key document hs
    obtain ⟨t', hran', -, hcell'⟩ := h.put key document hs'
    rw [hran, hran']
    refine ⟨rfl, ?_⟩
    intro other hother
    rw [hcell, hcell', hcells other hother]

theorem History.isConfined_load (h : docs.IsCellwise sound cell fetched filled) {device : String}
    (hkey : keys (Key.history device)) : IsConfined sound cell keys (load docs device) :=
  (h.isConfined_get hkey).bind fun _ => .pure _

theorem History.isConfined_append (h : docs.IsCellwise sound cell fetched filled) {device : String}
    (hkey : keys (Key.history device)) (reading : Reading) :
    IsConfined sound cell keys (append docs device reading) :=
  (isConfined_load h hkey).bind fun _ => h.isConfined_put hkey _

theorem History.isConfined_prune (h : docs.IsCellwise sound cell fetched filled) {device : String}
    (hkey : keys (Key.history device)) (retention : Span) (now : Instant) :
    IsConfined sound cell keys (prune docs retention device now) :=
  (isConfined_load h hkey).bind fun _ => (IsConfined.inCalendar _).bind fun _ =>
    (h.isConfined_put hkey _).bind fun _ => .pure _

theorem History.isConfined_ingest (h : docs.IsCellwise sound cell fetched filled) {device : String}
    (hkey : keys (Key.history device)) (retention : Span) (reading : Reading) (now : Instant) :
    IsConfined sound cell keys (ingest docs retention device reading now) :=
  (isConfined_load h hkey).bind fun _ => (IsConfined.inCalendar _).bind fun _ =>
    (h.isConfined_put hkey _).bind fun _ => .pure _

theorem Cooldown.isConfined_lastFire (h : docs.IsCellwise sound cell fetched filled)
    {device trigger : String} (hkey : keys (Key.cooldown device trigger)) :
    IsConfined sound cell keys (lastFire docs device trigger) :=
  (h.isConfined_get hkey).bind fun _ => .pure _

theorem Cooldown.isConfined_suppresses (h : docs.IsCellwise sound cell fetched filled)
    {device trigger : String} (hkey : keys (Key.cooldown device trigger)) (floor period : Span)
    (now : Instant) :
    IsConfined sound cell keys (suppresses docs floor device trigger period now) := by
  refine (isConfined_lastFire h hkey).bind fun last => ?_
  split
  · exact .pure _
  · exact (h.isConfined_put hkey _).bind fun _ => .pure _

theorem Trail.isConfined_record (h : docs.IsCellwise sound cell fetched filled)
    {device trigger : String} (hkey : keys (Key.trail device trigger)) (capacity : Nat)
    (entry : Entry) : IsConfined sound cell keys (record docs capacity device trigger entry) :=
  (h.isConfined_get hkey).bind fun _ => h.isConfined_put hkey _

theorem Trail.isConfined_recent (h : docs.IsCellwise sound cell fetched filled)
    {device trigger : String} (hkey : keys (Key.trail device trigger)) :
    IsConfined sound cell keys (recent docs device trigger) :=
  (h.isConfined_get hkey).bind fun _ => .pure _

theorem Shadows.isConfined_update (h : docs.IsCellwise sound cell fetched filled) {device : String}
    (hkey : keys (Key.shadow device)) (attributes : Dict Json) :
    IsConfined sound cell keys ((ofDocuments docs).update device attributes) :=
  (h.isConfined_get hkey).bind fun _ => h.isConfined_put hkey _

theorem Shadows.isConfined_get (h : docs.IsCellwise sound cell fetched filled) {device : String}
    (hkey : keys (Key.shadow device)) :
    IsConfined sound cell keys ((ofDocuments docs).get device) :=
  (h.isConfined_get hkey).bind fun _ => .pure _

end Calls

/-! ### Calls in sequence -/

/-- Calls made one after the other, each with its answer. A call that fails is not the last one. -/
def transcript (perform : κ → Action σ ε α) : List κ → Session σ → List (κ × Except (Stop ε) α)
  | [], _ => []
  | call :: rest, s =>
    (call, ((perform call).onSession s).1) :: transcript perform rest ((perform call).onSession s).2

/-- Of calls in any order those on some cells have the answers that they have without the others,
which are on other cells. -/
theorem filter_transcript (cell : σ → String → γ) {sound : σ → Prop} {keys others : String → Prop}
    {perform : κ → Action σ ε α} {mine : κ → Bool} (hapart : ∀ key, keys key → ¬ others key)
    (hmine : ∀ call, mine call = true → IsConfined sound cell keys (perform call))
    (hothers : ∀ call, mine call = false → IsConfined sound cell others (perform call))
    (calls : List κ) {s s' : Session σ} (hs : sound s.stores) (hs' : sound s'.stores)
    (hcells : ∀ key, keys key → cell s.stores key = cell s'.stores key) :
    (transcript perform calls s).filter (fun entry => mine entry.1) =
      transcript perform (calls.filter mine) s' := by
  induction calls generalizing s s' with
  | nil => rfl
  | cons call rest ih =>
    cases hcall : mine call with
    | true =>
      have hconfined := hmine call hcall
      obtain ⟨hresult, hafter⟩ := hconfined.inside hs hs' hcells
      have hrest := ih (hconfined.staysSound hs) (hconfined.staysSound hs') hafter
      rw [List.filter_cons_of_pos hcall, transcript, transcript,
        List.filter_cons_of_pos (by exact hcall), hrest, hresult]
    | false =>
      have hconfined := hothers call hcall
      have hafter : ∀ key, keys key →
          cell ((perform call).onSession s).2.stores key = cell s'.stores key := by
        intro key hkey
        rw [hconfined.outside hs key (hapart key hkey), hcells key hkey]
      have hrest := ih (hconfined.staysSound hs) hs' hafter
      rw [List.filter_cons_of_neg (by simp [hcall]), transcript,
        List.filter_cons_of_neg (by simp [hcall]), hrest]

end TriggerWatch
