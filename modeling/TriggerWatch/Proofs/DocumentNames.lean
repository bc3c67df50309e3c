import TriggerWatch.Proofs.Acceptance
import TriggerWatch.Proofs.Isolation

/-!
# No two documents share a key

A document is named by its kind, its device and, for some kinds, its trigger. Whatever the names
contain, keys of different kinds differ. Within a kind the key gives back the names, as long as no
separator stands in them, and then no other document has this key, be its names what they may. A
submission that passes the checks of its reading and of its rule has such names.

## Main definitions

- `Key.Kind`, `Key.Document` — the kinds of documents and their names
- `Key.Document.key` — the key of a document
- `Key.Document.IsPlain` — no separator stands in the names of a document
- `Submission.documents` — the documents that a submission is about

## Main statements

- `Key.Document.key_ne_of_kind_ne` — keys of different kinds differ
- `Key.Document.isPlain_of_mem_documents` — admitted names are plain
- `Key.Document.names_told_apart` — keys tell documents apart
-/

namespace TriggerWatch

namespace Key

/-- The kinds of documents. -/
inductive Kind where
  | history
  | cooldown
  | trail
  | shadow
deriving DecidableEq, Repr

/-- The name of a document. -/
inductive Document where
  | history (device : String)
  | cooldown (device trigger : String)
  | trail (device trigger : String)
  | shadow (device : String)
deriving DecidableEq, Repr

namespace Document

/-- The key of a document. -/
def key : Document → String
  | history device => Key.history device
  | cooldown device trigger => Key.cooldown device trigger
  | trail device trigger => Key.trail device trigger
  | shadow device => Key.shadow device

def kind : Document → Kind
  | history _ => .history
  | cooldown _ _ => .cooldown
  | trail _ _ => .trail
  | shadow _ => .shadow

/-- The names that stand in the key of a document. -/
def names : Document → List String
  | history device | shadow device => [device]
  | cooldown device trigger | trail device trigger => [device, trigger]

/-- No separator stands in the names of a document. -/
def IsPlain (d : Document) : Prop := ∀ name ∈ d.names, hasSeparator name = false

variable {d d' : Document}

/-- Keys of different kinds differ, whatever the names contain. -/
theorem key_ne_of_kind_ne (h : d.kind ≠ d'.kind) : d.key ≠ d'.key := by
  refine ne_of_kindLetter_ne ?_
  cases d <;> cases d' <;> simp_all [key, kind]

/-- Two names around a separator are found back if those on one side are free of it. -/
theorem names_eq_of_append_eq {device device' trigger trigger' : String}
    (hd : hasSeparator device = false) (ht : hasSeparator trigger = false)
    (h : device ++ "/" ++ trigger = device' ++ "/" ++ trigger') :
    device = device' ∧ trigger = trigger' := by
  obtain rfl := device_eq_of_append_eq hd ht h.symm
  exact device_inj hd hd h

/-- No other document has the key of a document with plain names. -/
theorem eq_of_key_eq (hd : d.IsPlain) (h : d.key = d'.key) : d = d' := by
  have hkind : d.kind = d'.kind :=
    Decidable.byContradiction fun hne => key_ne_of_kind_ne hne h
  cases d with
  | history device =>
    cases d' with
    | history device' => exact congrArg history (history_inj h)
    | cooldown | trail | shadow => cases hkind
  | shadow device =>
    cases d' with
    | shadow device' => exact congrArg shadow (shadow_inj h)
    | history | cooldown | trail => cases hkind
  | cooldown device trigger =>
    cases d' with
    | cooldown device' trigger' =>
      obtain ⟨rfl, rfl⟩ := names_eq_of_append_eq (hd device (by simp [names]))
        (hd trigger (by simp [names])) ((String.append_left_inj _).mp h)
      rfl
    | history | trail | shadow => cases hkind
  | trail device trigger =>
    cases d' with
    | trail device' trigger' =>
      obtain ⟨rfl, rfl⟩ := names_eq_of_append_eq (hd device (by simp [names]))
        (hd trigger (by simp [names])) ((String.append_left_inj _).mp h)
      rfl
    | history | cooldown | shadow => cases hkind

end Document

end Key

/-- The documents that a submission is about. -/
def Submission.documents (s : Submission) : List Key.Document :=
  [.history s.device, .cooldown s.device s.trigger, .trail s.device s.trigger, .shadow s.device]

namespace Key.Document

/-- The names of a submission that passes the checks are plain. -/
theorem isPlain_of_mem_documents {s : Submission} {r : Rule} {d : Document}
    (hreading : s.checkReading = .ok ()) (hrule : s.rule = .ok r) (hd : d ∈ s.documents) :
    d.IsPlain := by
  have hdevice : hasSeparator s.device = false :=
    hasSeparator_eq_false_of_isAddressable (Submission.isAddressable_of_checkReading hreading)
  have htrigger : hasSeparator s.trigger = false :=
    hasSeparator_eq_false_of_isAddressable (Submission.ok_of_rule hrule).isAddressable_trigger
  have hnames : ∀ name ∈ d.names, name = s.device ∨ name = s.trigger := by
    simp only [Submission.documents, List.mem_cons, List.not_mem_nil, or_false] at hd
    rcases hd with rfl | rfl | rfl | rfl <;> simp [names]
  intro name hname
  rcases hnames name hname with rfl | rfl
  · exact hdevice
  · exact htrigger

/-- A document whose names are free of the separator shares its key with no other document. Keys of
different kinds differ whatever the names contain, and so the keys of reported state from all
others. The names in a submission that passes the checks are free of the separator. -/
theorem names_told_apart :
    (∀ d d' : Document, d.IsPlain → (d.key = d'.key ↔ d = d')) ∧
    (∀ d d' : Document, d.kind ≠ d'.kind → d.key ≠ d'.key) ∧
    (∀ (device : String) (d : Document), d.key = (shadow device).key ↔ d = shadow device) ∧
    (∀ (s : Submission) (r : Rule), s.checkReading = .ok () → s.rule = .ok r →
      ∀ d ∈ s.documents, d.IsPlain) := by
  refine ⟨?_, ?_, ?_, ?_⟩
  · intro d d' hd
    exact ⟨eq_of_key_eq hd, congrArg key⟩
  · intro d d'
    exact key_ne_of_kind_ne
  · intro device d
    refine ⟨?_, congrArg key⟩
    intro h
    cases d with
    | shadow device' => exact congrArg shadow (shadow_inj h)
    | history | cooldown | trail => exact absurd h (key_ne_of_kind_ne nofun)
  · intro s r hreading hrule d hd
    exact isPlain_of_mem_documents hreading hrule hd

/-- A submission whose names look like the endings of keys. -/
def likeEndings : Submission :=
  { (Request.sample "2024-05-01T10:00:00Z").submission with
    device := "_events.json", trigger := "_shadow.json" }

theorem names_told_apart_of_likeEndings :
    (∃ r, likeEndings.checkReading = .ok () ∧ likeEndings.rule = .ok r) ∧
      (∀ d ∈ likeEndings.documents, d.IsPlain ∧ ∀ d' : Document, d.key = d'.key → d = d') ∧
      (cooldown "_events.json" "_shadow.json").key ≠ (shadow "_events.json/").key := by
  have hsome : likeEndings.rule.toOption.isSome = true := by decide +kernel
  obtain ⟨r, hr⟩ := Option.isSome_iff_exists.mp hsome
  have hreading : likeEndings.checkReading = .ok () := eq_ok_of_toOption (by decide +kernel)
  obtain ⟨hkeys, hkinds, -, hplain⟩ := names_told_apart
  refine ⟨⟨r, hreading, eq_ok_of_toOption hr⟩, ?_, hkinds _ _ nofun⟩
  intro d hd
  have hd := hplain likeEndings r hreading (eq_ok_of_toOption hr) d hd
  exact ⟨hd, fun d' => (hkeys d d' hd).mp⟩

/-- With a separator in a name the keys of two triggers may be one. -/
example : (cooldown "boiler/low" "cold").key = (cooldown "boiler" "low/cold").key := rfl

end Key.Document

end TriggerWatch
