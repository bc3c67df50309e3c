import TriggerWatch.Proofs.Changes

/-!
# Behavior of actions on stores in memory

An action behaves in a certain way if each of its runs ends with a result and with changes of the
stores that this way allows. The rules below follow the steps of actions, so a function of the
service is described once, from the descriptions of what it calls. Every store call of the service
is timed. It then does one of two things: it answers and has its effect, or it fails and has none.

## Main definitions

- `Behaves` — every run has an allowed result and allowed changes
- `Memory.Responds` — how a store call without a deadline can end
- `Memory.Answers` — how a store call with a deadline can end

## Main statements

- `Behaves.bind`, `Behaves.attempt`, `Behaves.mapFailure` — the rules for composed actions
- `Memory.Responds.timed` — under a deadline a call that is not answered fails
- `Memory.getDocument_responds`, `Memory.putDocument_responds`, `Memory.update_responds` — the store
  calls
- `Memory.post_behaves` — the call of the notifier
-/

namespace TriggerWatch

open Memory (Backing Change)

variable {ε ε' α β : Type} {b : Backing}

/-- What the runs of an action may come to: a result and changes, given the stores before it. -/
abbrev Memory.Ending (ε α : Type) := Memory → Except (Stop ε) α → List Change → Prop

/-- What the runs of two actions in sequence may come to. The second one starts from the result of
the first one and from what that made of the stores. -/
inductive Memory.Ending.Then (b : Backing) (P : Memory.Ending ε α) (Q : α → Memory.Ending ε β) :
    Memory.Ending ε β
  | stop {m : Memory} {e : Stop ε} {fx : List Change} (h : P m (.error e) fx) :
    Then b P Q m (.error e) fx
  | next {m m' : Memory} {x : α} {r : Except (Stop ε) β} {fx gx : List Change}
    (h : P m (.ok x) fx) (he : m.Evolves b fx m') (h' : Q x m' r gx) : Then b P Q m r (fx ++ gx)

/-- Every run of an action ends as `P` allows. -/
def Behaves (b : Backing) (a : Action Memory ε α) (P : Memory.Ending ε α) : Prop :=
  ∀ s, ∃ fx, P s.stores (a.onSession s).1 fx ∧
    s.stores.Evolves b fx (a.onSession s).2.stores

/-! ### Steps of actions on a session -/

namespace Action

variable {σ : Type} {s t : Session σ}

theorem onSession_bind_ok {a : Action σ ε α} {f : α → Action σ ε β} {x : α}
    (h : a.onSession s = (.ok x, t)) : (a >>= f).onSession s = (f x).onSession t := by
  change a s = _ at h
  change ExceptT.bindCont f (a s).1 (a s).2 = f x t
  rw [h]
  rfl

theorem onSession_bind_error {a : Action σ ε α} {f : α → Action σ ε β} {stop : Stop ε}
    (h : a.onSession s = (.error stop, t)) : (a >>= f).onSession s = (.error stop, t) := by
  change a s = _ at h
  change ExceptT.bindCont f (a s).1 (a s).2 = _
  rw [h]
  rfl

/-- Where two actions in sequence succeed, both do. -/
theorem exists_of_onSession_bind {a : Action σ ε α} {f : α → Action σ ε β} {y : β}
    (h : (a >>= f).onSession s = (.ok y, t)) :
    ∃ x s', a.onSession s = (.ok x, s') ∧ (f x).onSession s' = (.ok y, t) := by
  rcases ha : a.onSession s with ⟨stop | x, s'⟩
  · rw [onSession_bind_error ha] at h
    cases h
  · rw [onSession_bind_ok ha] at h
    exact ⟨x, s', rfl, h⟩

/-- The result of an attempt: a failure has become a value. -/
def attempted : Except (Stop ε) α → Except (Stop ε') (Except ε α)
  | .ok x => .ok (.ok x)
  | .error (.failed cause) => .ok (.error cause)
  | .error .unanswered => .error .unanswered
  | .error .outsideCalendar => .error .outsideCalendar

def renamed (f : ε → ε') : Except (Stop ε) α → Except (Stop ε') α
  | .ok x => .ok x
  | .error (.failed cause) => .error (.failed (f cause))
  | .error .unanswered => .error .unanswered
  | .error .outsideCalendar => .error .outsideCalendar

/-- A result at the deadline: a missing answer has become a failure. -/
def onTime (late : ε) : Except (Stop ε) α → Except (Stop ε) α
  | .error .unanswered => .error (.failed late)
  | r => r

theorem onSession_attempt (a : Action σ ε α) (s : Session σ) :
    (a.attempt : Action σ ε' (Except ε α)).onSession s =
      (attempted (a.onSession s).1, (a.onSession s).2) := by
  rcases h : a.onSession s with ⟨(_ | _ | _) | x, t⟩ <;>
    simp only [attempt, onSession, ofStep] at h ⊢ <;> rw [h] <;> rfl

theorem onSession_mapFailure (f : ε → ε') (a : Action σ ε α) (s : Session σ) :
    (a.mapFailure f).onSession s = (renamed f (a.onSession s).1, (a.onSession s).2) := by
  rcases h : a.onSession s with ⟨(_ | _ | _) | x, t⟩ <;>
    simp only [mapFailure, onSession, ofStep] at h ⊢ <;> rw [h] <;> rfl

/-- A deadline changes the time that passes and turns a missing answer into a failure. -/
theorem onSession_within (milliseconds : Nat) (late : ε) (a : Action σ ε α) (s : Session σ) :
    ((a.within milliseconds late).onSession s).1 =
        onTime late (a.onSession { s with deadline := some (s.elapsed + milliseconds) }).1 ∧
      ((a.within milliseconds late).onSession s).2.stores =
        (a.onSession { s with deadline := some (s.elapsed + milliseconds) }).2.stores := by
  rcases h : a.onSession { s with deadline := some (s.elapsed + milliseconds) } with
    ⟨(_ | _ | _) | x, t⟩ <;>
    simp only [within, onSession, ofStep] at h ⊢ <;> rw [h] <;> exact ⟨rfl, rfl⟩

end Action

/-! ### Rules -/

namespace Behaves

variable {P : Memory.Ending ε α}

theorem mono {a : Action Memory ε α} {Q : Memory.Ending ε α} (h : Behaves b a P)
    (hpq : ∀ m r fx, P m r fx → Q m r fx) : Behaves b a Q := by
  intro s
  obtain ⟨fx, hp, he⟩ := h s
  exact ⟨fx, hpq _ _ _ hp, he⟩

/-- An action that does nothing to the stores and ends with the same result from everywhere. -/
theorem still {a : Action Memory ε α} (r : Except (Stop ε) α)
    (ha : ∀ s, a.onSession s = (r, s)) (h : ∀ m, P m r []) : Behaves b a P := by
  intro s
  rw [ha s]
  exact ⟨[], h s.stores, .refl _⟩

theorem pure (x : α) : Behaves (ε := ε) b (Pure.pure x) fun _ r fx => r = .ok x ∧ fx = [] :=
  still (.ok x) (fun _ => rfl) fun _ => ⟨rfl, rfl⟩

theorem ofExcept (r : Except ε α) :
    Behaves b (Action.ofExcept r) fun _ r' fx => r' = r.mapError .failed ∧ fx = [] := by
  cases r with
  | ok x => exact still (.ok x) (fun _ => rfl) fun _ => ⟨rfl, rfl⟩
  | error e => exact still (.error (.failed e)) (fun _ => rfl) fun _ => ⟨rfl, rfl⟩

theorem modifyStores {f : Memory → Memory} {change : Change} (h : ∀ m, f m = m.enact b change) :
    Behaves (ε := ε) b (Action.modifyStores f) fun _ r fx => r = .ok () ∧ fx = [change] := by
  refine fun s => ⟨[change], ⟨rfl, rfl⟩, ?_⟩
  change s.stores.Evolves b [change] (f s.stores)
  rw [h]
  exact Memory.evolves_enact change

theorem bind {a : Action Memory ε α} {f : α → Action Memory ε β} {Q : α → Memory.Ending ε β}
    (ha : Behaves b a P) (hf : ∀ x, Behaves b (f x) (Q x)) : Behaves b (a >>= f) (P.Then b Q) := by
  intro s
  obtain ⟨fx, hp, he⟩ := ha s
  rcases h : a.onSession s with ⟨r | x, t⟩
  · rw [Action.onSession_bind_error h]
    rw [h] at hp he
    exact ⟨fx, .stop hp, he⟩
  · rw [Action.onSession_bind_ok h]
    rw [h] at hp he
    obtain ⟨gx, hq, he'⟩ := hf x t
    exact ⟨fx ++ gx, .next hp he hq, he.trans he'⟩

theorem attempt {a : Action Memory ε α} (ha : Behaves b a P) :
    Behaves b (a.attempt : Action Memory ε' (Except ε α)) fun m r fx =>
      ∃ r', P m r' fx ∧ r = Action.attempted r' := by
  intro s
  obtain ⟨fx, hp, he⟩ := ha s
  rw [Action.onSession_attempt]
  exact ⟨fx, ⟨_, hp, rfl⟩, he⟩

theorem mapFailure {a : Action Memory ε α} (f : ε → ε') (ha : Behaves b a P) :
    Behaves b (a.mapFailure f) fun m r fx => ∃ r', P m r' fx ∧ r = Action.renamed f r' := by
  intro s
  obtain ⟨fx, hp, he⟩ := ha s
  rw [Action.onSession_mapFailure]
  exact ⟨fx, ⟨_, hp, rfl⟩, he⟩

theorem within {a : Action Memory ε α} (milliseconds : Nat) (late : ε) (ha : Behaves b a P) :
    Behaves b (a.within milliseconds late) fun m r fx =>
      ∃ r', P m r' fx ∧ r = Action.onTime late r' := by
  intro s
  obtain ⟨fx, hp, he⟩ := ha { s with deadline := some (s.elapsed + milliseconds) }
  obtain ⟨hr, ht⟩ := Action.onSession_within milliseconds late a s
  rw [hr, ht]
  exact ⟨fx, ⟨_, hp, rfl⟩, he⟩

theorem inCalendar (x : Option α) :
    Behaves (ε := ε) b (Action.inCalendar x) fun _ r fx =>
      ((∃ y, x = some y ∧ r = .ok y) ∨ (x = none ∧ r = .error .outsideCalendar)) ∧ fx = [] := by
  cases x with
  | some y => exact still (.ok y) (fun _ => rfl) fun _ => ⟨.inl ⟨y, rfl, rfl⟩, rfl⟩
  | none => exact still (.error .outsideCalendar) (fun _ => rfl) fun _ => ⟨.inr ⟨rfl, rfl⟩, rfl⟩

end Behaves

/-! ### Store calls -/

namespace Memory

/-- How a store call without a deadline ends: it answers and has its effect, or a fault keeps it
from doing so. -/
inductive Responds (answer : Memory → α) (effect : Memory → List Change) :
    Memory.Ending StoreFailure α
  | answered {m : Memory} : Responds answer effect m (.ok (answer m)) (effect m)
  | failed {m : Memory} (cause : StoreFailure) (h : m.IsFaulty) :
    Responds answer effect m (.error (.failed cause)) []
  | unanswered {m : Memory} (h : m.IsFaulty) : Responds answer effect m (.error .unanswered) []

/-- How a store call with a deadline ends: it answers and has its effect, or a fault makes it
fail. -/
inductive Answers (answer : Memory → α) (effect : Memory → List Change) :
    Memory.Ending StoreFailure α
  | answered {m : Memory} : Answers answer effect m (.ok (answer m)) (effect m)
  | failed {m : Memory} (cause : StoreFailure) (h : m.IsFaulty) :
    Answers answer effect m (.error (.failed cause)) []

/-- What is answered from the stores before a call can be told from those before an earlier one. -/
theorem Responds.earlier {answer answer' : Memory → α} {effect effect' : Memory → List Change}
    {m m' : Memory} {fx gx : List Change} {r : Except (Stop StoreFailure) α}
    (h : Responds answer effect m' r gx) (he : m.Evolves b fx m')
    (ha : answer m' = answer' m) (hx : effect m' = effect' m) :
    Responds answer' effect' m r gx := by
  cases h with
  | answered => rw [ha, hx]; exact .answered
  | failed cause hm => exact .failed cause (he.isFaulty_iff.mp hm)
  | unanswered hm => exact .unanswered (he.isFaulty_iff.mp hm)

/-- A call that changes nothing, and a call that starts from what the first one answered. -/
theorem Responds.bind {a : Action Memory StoreFailure α} {f : α → Action Memory StoreFailure β}
    {first : Memory → α} {answer : α → Memory → β} {effect : α → Memory → List Change}
    {answer' : Memory → β} {effect' : Memory → List Change}
    (ha : Behaves b a (Responds first fun _ => []))
    (hf : ∀ x, Behaves b (f x) (Responds (answer x) (effect x)))
    (hr : ∀ {m m'}, m.Evolves b [] m' →
      answer (first m) m' = answer' m ∧ effect (first m) m' = effect' m) :
    Behaves b (a >>= f) (Responds answer' effect') := by
  refine (Behaves.bind ha hf).mono fun m r fx h => ?_
  rcases h with ⟨⟨⟩⟩ | ⟨⟨⟩, he, h'⟩
  · next hm => exact .failed _ hm
  · next hm => exact .unanswered hm
  · exact h'.earlier he (hr he).1 (hr he).2

/-- A call over the link that meets a fault may fail or stay without an answer. -/
theorem meet_responds (fault : Option Fault) :
    Behaves b (Link.meet StoreFailure.backend fault) fun m r fx =>
      (fault.isSome → m.IsFaulty) → Responds (fun _ => ()) (fun _ => []) m r fx := by
  cases fault with
  | none => exact Behaves.still _ (fun _ => rfl) fun m _ => .answered
  | some fault =>
    cases fault with
    | refuse message =>
      exact Behaves.still _ (fun _ => rfl) fun m h => .failed (.backend message) (h rfl)
    | stall => exact Behaves.still _ (fun _ => rfl) fun m h => .unanswered (h rfl)
    | delay milliseconds =>
      intro s
      refine ⟨[], ?_⟩
      change _ ∧ s.stores.Evolves b [] ((Action.wait milliseconds).onSession s).2.stores
      -- a delay that would pass the deadline leaves the call without an answer
      simp only [Link.meet, Action.wait, Action.ofStep, Action.onSession]
      split
      · exact ⟨fun _ => .answered, .refl _⟩
      · split
        · exact ⟨fun _ => .answered, .refl _⟩
        · exact ⟨fun h => .unanswered (h rfl), .refl _⟩

theorem reach_responds (call : Call) :
    Behaves b (reach call) (Responds (fun _ => ()) fun _ => []) := by
  intro s
  obtain ⟨fx, hr, he⟩ := meet_responds (b := b) s.stores.link.next
    { s with stores := { s.stores with link := s.stores.link.record call } }
  refine ⟨fx, ?_, (evolves_record call).trans he⟩
  exact (hr fun h => ⟨_, Option.isSome_iff_ne_none.mp h⟩).earlier (evolves_record (b := b) call)
    rfl rfl

theorem stores_responds (f : Memory → α) :
    Behaves b (do return f (← Action.stores)) (Responds f fun _ => []) :=
  fun s => ⟨[], .answered, .refl s.stores⟩

theorem modifyStores_responds {f : Memory → Memory} (change : Change)
    (h : ∀ m, f m = m.enact b change) :
    Behaves b (Action.modifyStores f) (Responds (fun _ => ()) fun _ => [change]) := by
  refine (Behaves.modifyStores h).mono fun m r fx hm => ?_
  obtain ⟨rfl, rfl⟩ := hm
  exact @Responds.answered _ (fun _ => ()) (fun _ => [change]) m

theorem getDocument_responds (key : String) :
    Behaves b (documentStore.get key) (Responds (·.document? key) fun _ => []) :=
  Responds.bind (reach_responds _) (fun _ => stores_responds (·.document? key))
    fun he => ⟨he.document?_eq (by simp), rfl⟩

theorem putDocument_responds (key : String) (document : Json) :
    Behaves b (documentStore.put key document)
      (Responds (fun _ => ()) fun _ => [.put key document]) :=
  Responds.bind (reach_responds _) (fun _ => modifyStores_responds (.put key document)
    fun _ => rfl) fun _ => ⟨rfl, rfl⟩

theorem Responds.andModify {a : Action Memory StoreFailure Unit} {effect : Memory → List Change}
    {f : Memory → Memory} (change : Change) (ha : Behaves b a (Responds (fun _ => ()) effect))
    (h : ∀ m, f m = m.enact b change) :
    Behaves b (a >>= fun _ => Action.modifyStores f)
      (Responds (fun _ => ()) fun m => effect m ++ [change]) := by
  refine (Behaves.bind ha fun _ => Behaves.modifyStores h).mono fun m r fx hm => ?_
  rcases hm with ⟨⟨⟩⟩ | ⟨⟨⟩, he, ⟨rfl, rfl⟩⟩
  · next hf => exact .failed _ hf
  · next hf => exact .unanswered hf
  · exact @Responds.answered _ (fun _ => ()) (fun m => effect m ++ [change]) m

theorem update_responds (device : String) (attributes : Dict Json) :
    Behaves b ((shadows b).update device attributes)
      (Responds (fun _ => ()) fun m => m.updateChanges b device attributes) := by
  cases b with
  | apart =>
    exact Responds.bind (reach_responds _)
      (fun _ => modifyStores_responds (.update device attributes) fun _ => rfl) fun _ => ⟨rfl, rfl⟩
  | documents =>
    have replace : Behaves .documents ((Shadows.ofDocuments documentStore).update device attributes)
        (Responds (fun _ => ()) fun m => [.put (Key.shadow device) (Shadow.document
          ((Shadow.reportedOf (m.document? (Key.shadow device))).extend attributes))]) :=
      Responds.bind (getDocument_responds _) (fun _ => putDocument_responds _ _)
        fun _ => ⟨rfl, rfl⟩
    refine Responds.bind (reach_responds _)
      (fun _ => Responds.andModify (.update device attributes) replace fun _ => rfl) fun he => ?_
    rw [he.document?_eq (by simp)]
    exact ⟨rfl, rfl⟩

/-- A deadline leaves no call without an answer. -/
theorem Responds.timed {a : Action Memory StoreFailure α} {answer : Memory → α}
    {effect : Memory → List Change} (ha : Behaves b a (Responds answer effect)) (call : StoreCall)
    (milliseconds : Nat) : Behaves b (call.timed milliseconds a) (Answers answer effect) := by
  refine (ha.within milliseconds _).mono fun m r fx h => ?_
  obtain ⟨r', h, rfl⟩ := h
  cases h with
  | answered => exact .answered
  | failed cause hm => exact .failed cause hm
  | unanswered hm => exact .failed _ hm

theorem Answers.map {a : Action Memory StoreFailure α} {answer : Memory → α}
    {effect : Memory → List Change} (g : α → β) (ha : Behaves b a (Answers answer effect)) :
    Behaves b (a >>= fun x => pure (g x)) (Answers (fun m => g (answer m)) effect) := by
  refine (Behaves.bind ha fun x => Behaves.pure (g x)).mono fun m r fx h => ?_
  rcases h with ⟨⟨⟩⟩ | ⟨⟨⟩, he, ⟨rfl, rfl⟩⟩
  · next hm => exact .failed _ hm
  · rw [List.append_nil]
    exact .answered

theorem Responds.map {a : Action Memory StoreFailure α} {answer : Memory → α}
    {effect : Memory → List Change} (g : α → β) (ha : Behaves b a (Responds answer effect)) :
    Behaves b (a >>= fun x => pure (g x)) (Responds (fun m => g (answer m)) effect) := by
  refine (Behaves.bind ha fun x => Behaves.pure (g x)).mono fun m r fx h => ?_
  rcases h with ⟨⟨⟩⟩ | ⟨⟨⟩, he, ⟨rfl, rfl⟩⟩
  · next hm => exact .failed _ hm
  · next hm => exact .unanswered hm
  · rw [List.append_nil]
    exact .answered

/-- Without faults a store call answers and has its effect. -/
theorem Responds.onSession {a : Action Memory StoreFailure α} {answer : Memory → α}
    {effect : Memory → List Change} (ha : Behaves b a (Responds answer effect)) {s : Session Memory}
    (hs : ¬ s.stores.IsFaulty) :
    ∃ t, a.onSession s = (.ok (answer s.stores), t) ∧
      s.stores.Evolves b (effect s.stores) t.stores := by
  obtain ⟨fx, hr, ev⟩ := ha s
  rcases hran : a.onSession s with ⟨r, t⟩
  rw [hran] at hr ev
  cases hr with
  | answered => exact ⟨t, rfl, ev⟩
  | failed cause hm | unanswered hm => exact absurd hm hs

/-- A message is posted whether or not it is accepted. -/
theorem post_behaves (device text : String) :
    Behaves b (notifier.post device text) fun _ r fx =>
      fx = [.post device text] ∧ (r = .ok () ∨ ∃ cause, r = .error (.failed cause)) := by
  intro s
  refine ⟨[.post device text], ?_⟩
  have answer (accepted : Bool) (t : Session Memory) :
      (if accepted then pure () else Action.fail (.rejected 503 "") :
        Action Memory DeliveryFailure Unit).onSession t =
      (if accepted then .ok () else .error (.failed (.rejected 503 "")), t) := by
    cases accepted <;> rfl
  have run : (notifier.post device text).onSession s =
      (if s.stores.accepts s.stores.notices.length then .ok ()
        else .error (.failed (.rejected 503 "")),
       { s with stores := s.stores.enact b (.post device text) }) :=
    (Action.onSession_bind_ok rfl).trans ((Action.onSession_bind_ok rfl).trans (answer _ _))
  rw [run]
  refine ⟨⟨rfl, ?_⟩, evolves_enact _⟩
  split
  · exact .inl rfl
  · exact .inr ⟨_, rfl⟩

end Memory

end TriggerWatch
