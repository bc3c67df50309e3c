import TriggerWatch.Store.Memory
import TriggerWatch.Proofs.Keys

/-!
# What changes make of the stores

The stores in memory take note of every change that takes effect. What they hold afterwards is what
these changes make of what they held before; calls that had no effect leave their mark on the record
of the link alone.

## Main definitions

- `Memory.document?`, `Memory.reported?` — the views of the stores
- `Memory.IsFaulty` — whether a call can meet a fault
- `Memory.enact` — what one change makes of the stores
- `Memory.updateChanges` — the changes of one update of reported state
- `Memory.Evolves` — one state of the stores comes from another by a list of changes

## Main statements

- `Memory.Evolves.trans` — changes in sequence
- `Memory.Evolves.document?_eq` — a document stays unless one is put under its key
- `Memory.Evolves.reported?_eq` — a reported state stays unless it is updated
- `Memory.reported?_updateChanges` — an update merges attributes into the reported state
-/

namespace TriggerWatch

theorem filterMap_cons_eq_append {α β : Type} (f : α → Option β) (x : α) (rest : List α) :
    (x :: rest).filterMap f = (f x).toList ++ rest.filterMap f := by
  rw [List.filterMap_cons]
  cases f x <;> rfl

namespace Memory

def document? (m : Memory) (key : String) : Option Json := Dict.get? m.documents key

/-- The reported state of a device. -/
def reported? (b : Backing) (m : Memory) (device : String) : Option (Dict Json) :=
  match b with
  | .apart => Dict.get? m.reported device
  | .documents => (m.document? (Key.shadow device)).bind Shadow.reported?

/-- Whether some call over the link can meet a fault. -/
def IsFaulty (m : Memory) : Prop := ∃ n, m.link.faults n ≠ none

/-- What one change makes of the stores. -/
def enact (b : Backing) (m : Memory) (change : Change) : Memory :=
  match change, b with
  | .put key document, _ => { m with documents := m.documents.insert key document }.note change
  | .update device attributes, .apart =>
    { m with reported := merge m.reported device attributes }.note change
  | .update _ _, .documents => m.note change
  | .post device text, _ => { m with notices := m.notices ++ [(device, text)] }.note change

def enactAll (b : Backing) (m : Memory) (changes : List Change) : Memory :=
  changes.foldl (enact b) m

/-- The stores after more calls over the link. -/
def withCalls (m : Memory) (calls : List Call) : Memory :=
  { m with link := { m.link with calls := m.link.calls ++ calls } }

/-- The stores come from others by the given changes and some calls over the link. -/
def Evolves (b : Backing) (m : Memory) (changes : List Change) (m' : Memory) : Prop :=
  ∃ calls, m' = (m.enactAll b changes).withCalls calls

/-- The changes of one update of reported state. -/
def updateChanges (b : Backing) (m : Memory) (device : String) (attributes : Dict Json) :
    List Change :=
  match b with
  | .apart => [.update device attributes]
  | .documents => [
    .put (Key.shadow device) (Shadow.document
      ((Shadow.reportedOf (m.document? (Key.shadow device))).extend attributes)),
    .update device attributes]

def Change.notice? : Change → Option (String × String)
  | .post device text => some (device, text)
  | _ => none

variable {b : Backing} {m m' m'' : Memory} {fx gx : List Change}

/-! ### Single changes -/

@[simp] theorem document?_put (key : String) (document : Json) (other : String) :
    (m.enact b (.put key document)).document? other =
      if key = other then some document else m.document? other :=
  Dict.get?_insert m.documents key document other

@[simp] theorem document?_update (device : String) (attributes : Dict Json) (key : String) :
    (m.enact b (.update device attributes)).document? key = m.document? key := by
  cases b <;> rfl

@[simp] theorem document?_post (device text key : String) :
    (m.enact b (.post device text)).document? key = m.document? key := rfl

@[simp] theorem reported?_post (device text other : String) :
    (m.enact b (.post device text)).reported? b other = m.reported? b other := by
  cases b <;> rfl

/-- A document under a key of another kind is no part of the reported state. -/
theorem reported?_put {key : String} (document : Json) {device : String}
    (h : key ≠ Key.shadow device) :
    (m.enact b (.put key document)).reported? b device = m.reported? b device := by
  cases b with
  | apart => rfl
  | documents => rw [reported?, document?_put, if_neg h, reported?]

theorem changes_enact (change : Change) : (m.enact b change).changes = m.changes ++ [change] := by
  cases change <;> cases b <;> rfl

theorem notices_enact (change : Change) :
    (m.enact b change).notices = m.notices ++ change.notice?.toList := by
  cases change <;> cases b <;> simp [enact, note, Change.notice?]

theorem link_enact (change : Change) : (m.enact b change).link = m.link := by
  cases change <;> cases b <;> rfl

theorem enact_withCalls (calls : List Call) (change : Change) :
    (m.withCalls calls).enact b change = (m.enact b change).withCalls calls := by
  cases change <;> cases b <;> rfl

/-! ### Changes in sequence -/

theorem enactAll_nil : m.enactAll b [] = m := rfl

theorem enactAll_cons (change : Change) (rest : List Change) :
    m.enactAll b (change :: rest) = (m.enact b change).enactAll b rest := rfl

theorem enactAll_append (fx gx : List Change) :
    m.enactAll b (fx ++ gx) = (m.enactAll b fx).enactAll b gx :=
  List.foldl_append

theorem enactAll_withCalls (calls : List Call) :
    (m.withCalls calls).enactAll b fx = (m.enactAll b fx).withCalls calls := by
  induction fx generalizing m with
  | nil => rfl
  | cons change rest ih =>
    rw [enactAll_cons, enact_withCalls]
    exact ih

theorem link_enactAll : (m.enactAll b fx).link = m.link := by
  induction fx generalizing m with
  | nil => rfl
  | cons change rest ih => exact (ih (m := m.enact b change)).trans (link_enact change)

theorem changes_enactAll : (m.enactAll b fx).changes = m.changes ++ fx := by
  induction fx generalizing m with
  | nil => exact (List.append_nil _).symm
  | cons change rest ih =>
    have h := ih (m := m.enact b change)
    rw [changes_enact, List.append_assoc] at h
    exact h

theorem notices_enactAll :
    (m.enactAll b fx).notices = m.notices ++ fx.filterMap Change.notice? := by
  induction fx generalizing m with
  | nil => exact (List.append_nil _).symm
  | cons change rest ih =>
    have h := ih (m := m.enact b change)
    rw [notices_enact, List.append_assoc] at h
    rw [enactAll_cons, h, filterMap_cons_eq_append]

/-- A document stays unless one is put under its key. -/
theorem document?_enactAll {key : String} (h : ∀ document, .put key document ∉ fx) :
    (m.enactAll b fx).document? key = m.document? key := by
  induction fx generalizing m with
  | nil => rfl
  | cons change rest ih =>
    have hrest := ih (m := m.enact b change) fun document hc =>
      h document (List.mem_cons_of_mem _ hc)
    refine hrest.trans ?_
    cases change with
    | put other document =>
      rw [document?_put, if_neg]
      rintro rfl
      exact h document List.mem_cons_self
    | update device attributes => exact document?_update device attributes key
    | post device text => exact document?_post device text key

/-- If a single document is put under a key, it is found there. -/
theorem document?_enactAll_of_mem {key : String} {document : Json} (h : .put key document ∈ fx)
    (only : ∀ other, .put key other ∈ fx → other = document) :
    (m.enactAll b fx).document? key = some document := by
  induction fx generalizing m with
  | nil => cases h
  | cons change rest ih =>
    -- a later change under the key puts the same document, so the last one counts
    by_cases hrest : .put key document ∈ rest
    · exact ih hrest fun other ho => only other (List.mem_cons_of_mem _ ho)
    · have hchange : .put key document = change := (List.mem_cons.mp h).resolve_right hrest
      have hput : ∀ other, .put key other ∉ rest := by
        intro other ho
        rw [only other (List.mem_cons_of_mem _ ho)] at ho
        exact hrest ho
      rw [enactAll_cons, document?_enactAll hput, ← hchange, document?_put, if_pos rfl]

/-- A reported state stays unless it is updated or its document is replaced. -/
theorem reported?_enactAll {device : String}
    (hput : ∀ document, .put (Key.shadow device) document ∉ fx)
    (hupdate : ∀ attributes, .update device attributes ∉ fx) :
    (m.enactAll b fx).reported? b device = m.reported? b device := by
  cases b with
  | documents => rw [reported?, document?_enactAll hput, reported?]
  | apart =>
    -- here only updates matter
    induction fx generalizing m with
    | nil => rfl
    | cons change rest ih =>
      have hrest := ih (m := m.enact .apart change)
        (fun document hc => hput document (List.mem_cons_of_mem _ hc))
        (fun attributes hc => hupdate attributes (List.mem_cons_of_mem _ hc))
      refine hrest.trans ?_
      cases change with
      | put key document => rfl
      | post other text => rfl
      | update other attributes =>
        refine Dict.get?_insert_of_ne _ _ ?_
        rintro rfl
        exact hupdate attributes List.mem_cons_self

/-- An update merges attributes into the reported state of its device. -/
theorem reported?_updateChanges (device : String) (attributes : Dict Json) :
    (m.enactAll b (m.updateChanges b device attributes)).reported? b device =
      some (((m.reported? b device).getD []).extend attributes) := by
  cases b with
  | apart => exact Dict.get?_insert_self _ _ _
  | documents =>
    simp only [updateChanges, enactAll, List.foldl_cons, List.foldl_nil, reported?,
      document?_update, document?_put, if_true, Option.bind_some, Shadow.reported?_document]
    rfl

theorem update_mem_updateChanges (m : Memory) (device : String) (attributes : Dict Json) :
    .update device attributes ∈ m.updateChanges b device attributes := by
  cases b <;> simp [updateChanges]

/-- An update puts no document but the one of its device. -/
theorem key_eq_of_mem_updateChanges {device key : String} {attributes : Dict Json} {document : Json}
    (h : .put key document ∈ m.updateChanges b device attributes) : key = Key.shadow device := by
  cases b with
  | apart => simp [updateChanges] at h
  | documents =>
    simp only [updateChanges, List.mem_cons, Change.put.injEq, reduceCtorEq, List.not_mem_nil,
      or_false] at h
    exact h.1

/-! ### Evolution -/

theorem Evolves.refl (m : Memory) : m.Evolves b [] m := by
  refine ⟨[], ?_⟩
  simp [enactAll, withCalls]

theorem Evolves.trans (h : m.Evolves b fx m') (h' : m'.Evolves b gx m'') :
    m.Evolves b (fx ++ gx) m'' := by
  obtain ⟨calls, rfl⟩ := h
  obtain ⟨calls', rfl⟩ := h'
  refine ⟨calls ++ calls', ?_⟩
  rw [enactAll_withCalls, enactAll_append]
  simp [withCalls, List.append_assoc]

/-- A call over the link changes nothing but the record of calls. -/
theorem evolves_record (call : Call) :
    m.Evolves b [] { m with link := m.link.record call } :=
  ⟨[call], rfl⟩

theorem evolves_enact (change : Change) : m.Evolves b [change] (m.enact b change) := by
  refine ⟨[], ?_⟩
  simp [enactAll, withCalls]

theorem evolves_enactAll (m : Memory) (fx : List Change) : m.Evolves b fx (m.enactAll b fx) := by
  refine ⟨[], ?_⟩
  simp [withCalls]

theorem Evolves.faults_eq (h : m.Evolves b fx m') : m'.link.faults = m.link.faults := by
  obtain ⟨calls, rfl⟩ := h
  change (m.enactAll b fx).link.faults = m.link.faults
  rw [link_enactAll]

theorem Evolves.isFaulty_iff (h : m.Evolves b fx m') : m'.IsFaulty ↔ m.IsFaulty := by
  rw [IsFaulty, IsFaulty, h.faults_eq]

theorem Evolves.changes_eq (h : m.Evolves b fx m') : m'.changes = m.changes ++ fx := by
  obtain ⟨calls, rfl⟩ := h
  exact changes_enactAll

theorem Evolves.notices_eq (h : m.Evolves b fx m') :
    m'.notices = m.notices ++ fx.filterMap Change.notice? := by
  obtain ⟨calls, rfl⟩ := h
  exact notices_enactAll

theorem Evolves.document?_enacted (h : m.Evolves b fx m') (key : String) :
    m'.document? key = (m.enactAll b fx).document? key := by
  obtain ⟨calls, rfl⟩ := h
  rfl

theorem Evolves.reported?_enacted (h : m.Evolves b fx m') (device : String) :
    m'.reported? b device = (m.enactAll b fx).reported? b device := by
  obtain ⟨calls, rfl⟩ := h
  cases b <;> rfl

theorem Evolves.document?_eq (h : m.Evolves b fx m') {key : String}
    (hk : ∀ document, .put key document ∉ fx) : m'.document? key = m.document? key := by
  rw [h.document?_enacted, document?_enactAll hk]

theorem Evolves.reported?_eq (h : m.Evolves b fx m') {device : String}
    (hput : ∀ document, .put (Key.shadow device) document ∉ fx)
    (hupdate : ∀ attributes, .update device attributes ∉ fx) :
    m'.reported? b device = m.reported? b device := by
  rw [h.reported?_enacted, reported?_enactAll hput hupdate]

/-- What an update changes is settled before changes that leave the document of its device. -/
theorem Evolves.updateChanges_eq (h : m.Evolves b fx m') {device : String}
    (hput : ∀ document, .put (Key.shadow device) document ∉ fx) (attributes : Dict Json) :
    m'.updateChanges b device attributes = m.updateChanges b device attributes := by
  cases b with
  | apart => rfl
  | documents => rw [updateChanges, updateChanges, h.document?_eq hput]

end Memory

end TriggerWatch
