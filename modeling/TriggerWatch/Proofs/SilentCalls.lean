import Mathlib.Data.List.Forall2
import TriggerWatch.Proofs.Keys
import TriggerWatch.Proofs.Refusals

/-!
# Calls that are never answered

A store call that is refused fails, and one that is never answered fails once its time is over. Two
runs of evaluations are compared here. The second one starts like the first one, but some calls that
the first one would see refused stay without an answer. Both runs make the same calls, post the same
messages and have the same outcomes, and where an evaluation fails both fail in the same step. Only
the cause differs, and with it the text of some entries in the trails.

## Main definitions

- `Ends` — two actions come to values or stops that go together
- `Silencing` — the faults of a run and the calls that are never answered in another one
- `Silencing.Mirrored` — the causes of a failure in the two runs
- `Silencing.Among` — the first call that fails has these causes
- `Silencing.Alike` — the stores in the two runs
- `Silencing.Mirrors` — two actions do alike
- `Silencing.IsTwin` — an episode of the first run and one of the second

## Main statements

- `Silencing.Mirrors.bind` — the rule for actions in sequence
- `Silencing.Mirrors.timed` — under a deadline every call is answered
- `Silencing.reach_mirrors` — a call over the link
- `Silencing.Serves.evaluate` — an evaluation
- `Evaluator.episodes_silenced` — the two runs
-/

namespace TriggerWatch

open Memory (Backing)

/-! ### Results that go together -/

/-- Two actions come to values that go together, or stop for reasons that do. -/
inductive Ends {ε α : Type} (X : Stop ε → Stop ε → Prop) (V : α → α → Prop) :
    Except (Stop ε) α → Except (Stop ε) α → Prop
  | ok {x x' : α} (h : V x x') : Ends X V (.ok x) (.ok x')
  | error {stop stop' : Stop ε} (h : X stop stop') : Ends X V (.error stop) (.error stop')

/-- Two actions stop with causes that go together, or both at the end of the calendar. -/
inductive Stops {ε : Type} (F : ε → ε → Prop) : Stop ε → Stop ε → Prop
  | failed {cause cause' : ε} (h : F cause cause') : Stops F (.failed cause) (.failed cause')
  | outsideCalendar : Stops F .outsideCalendar .outsideCalendar

/-- Two results that were attempted go together. -/
inductive Results {ε α : Type} (F : ε → ε → Prop) (V : α → α → Prop) :
    Except ε α → Except ε α → Prop
  | ok {x x' : α} (h : V x x') : Results F V (.ok x) (.ok x')
  | error {cause cause' : ε} (h : F cause cause') : Results F V (.error cause) (.error cause')

namespace Ends

variable {ε ε' α : Type} {X : Stop ε → Stop ε → Prop} {F : ε → ε → Prop} {G : ε' → ε' → Prop}
  {V V' : α → α → Prop} {r r' : Except (Stop ε) α}

theorem imp (h : Ends X V r r') (hV : ∀ x x', V x x' → V' x x') : Ends X V' r r' := by
  cases h with
  | ok hx => exact .ok (hV _ _ hx)
  | error hstop => exact .error hstop

theorem attempted (h : Ends (Stops F) V r r') :
    Ends (Stops G) (Results F V) (Action.attempted r) (Action.attempted r') := by
  cases h with
  | ok hx => exact .ok (.ok hx)
  | error hstop =>
    cases hstop with
    | failed hcause => exact .ok (.error hcause)
    | outsideCalendar => exact .error .outsideCalendar

theorem renamed {g : ε → ε'} (h : Ends (Stops F) V r r')
    (hg : ∀ cause cause', F cause cause' → G (g cause) (g cause')) :
    Ends (Stops G) V (Action.renamed g r) (Action.renamed g r') := by
  cases h with
  | ok hx => exact .ok hx
  | error hstop =>
    cases hstop with
    | failed hcause => exact .error (.failed (hg _ _ hcause))
    | outsideCalendar => exact .error .outsideCalendar

end Ends

/-! ### What may differ -/

/-- The faults of a run, and the calls that are never answered in another one where the first one
sees them refused. -/
structure Silencing where
  faults : Nat → Option Fault
  chosen : Nat → Bool
  /-- The milliseconds within which a call has to be answered. -/
  timeout : Nat

namespace Silencing

variable (w : Silencing)

/-- The faults of the other run. -/
def silenced (n : Nat) : Option Fault :=
  match w.faults n with
  | some (.refuse message) => if w.chosen n then some .stall else some (.refuse message)
  | fault => fault

/-- Calls that are all answered, unless late: those from the one numbered `i` on and before the one
numbered `j`. -/
def IsClear (i j : Nat) : Prop :=
  i ≤ j ∧ ∀ n, i ≤ n → n < j →
    w.faults n ≠ some .stall ∧ ∀ message, w.faults n ≠ some (.refuse message)

/-- The causes of a failure in the two runs, where the call numbered `n` has failed. -/
inductive Mirrored (n : Nat) : StoreFailure → StoreFailure → Prop
  | silenced {message : String} {call : StoreCall} (hchosen : w.chosen n = true)
    (hfault : w.faults n = some (.refuse message)) :
    Mirrored n (.backend message) (.timeout call w.timeout)
  | refused {message : String} (hchosen : w.chosen n = false)
    (hfault : w.faults n = some (.refuse message)) :
    Mirrored n (.backend message) (.backend message)
  | late {call : StoreCall} (hfault : ∀ message, w.faults n ≠ some (.refuse message)) :
    Mirrored n (.timeout call w.timeout) (.timeout call w.timeout)

/-- The causes of a failure in the two runs, where the first call that failed is one before the one
numbered `j`, counted from the one numbered `i` on. -/
def Among (i j : Nat) (cause cause' : StoreFailure) : Prop :=
  ∃ n, w.IsClear i n ∧ n < j ∧ w.Mirrored n cause cause'

/-- The failures of an evaluation in the two runs. -/
inductive Failed (i j : Nat) : EvaluationFailure → EvaluationFailure → Prop
  | rejected {failure : EvaluationFailure} (h : failure.isRejection = true) :
    Failed i j failure failure
  | unavailable {step : Step} {cause cause' : StoreFailure} (h : w.Among i j cause cause') :
    Failed i j (.storeUnavailable step cause) (.storeUnavailable step cause')

/-- Entries of a trail in the two runs. They are the same but for the cause of a failure. -/
inductive Retells : Json → Json → Prop
  | same (entry : Json) : Retells entry entry
  | failed {s : Submission} {recorded : Instant} {step : Step} {cause cause' : StoreFailure}
    {i j : Nat} (h : w.Among i j cause cause') :
    Retells (Evaluator.entryOf s (.error (.storeUnavailable step cause)) recorded).toJson
      (Evaluator.entryOf s (.error (.storeUnavailable step cause')) recorded).toJson

/-- What is under a key in the two runs. It is the same, unless it is a trail with entries that
tell of failures. -/
def Tells (key : String) (found found' : Option Json) : Prop :=
  found = found' ∨ ∃ device trigger entries entries', key = Key.trail device trigger ∧
    found = some (.array entries) ∧ found' = some (.array entries') ∧
      List.Forall₂ w.Retells entries entries'

/-- The stores in the two runs. -/
structure Alike (m m' : Memory) : Prop where
  faults : m.link.faults = w.faults
  silenced : m'.link.faults = w.silenced
  calls : m'.link.calls = m.link.calls
  documents : ∀ key, w.Tells key (m.document? key) (m'.document? key)
  reported : m'.reported = m.reported
  notices : m'.notices = m.notices
  accepts : m'.accepts = m.accepts

variable {w} {i j k : Nat}

theorem IsClear.refl (i : Nat) : w.IsClear i i :=
  ⟨Nat.le_refl i, fun _ hi hj => absurd hi (Nat.not_le_of_lt hj)⟩

theorem IsClear.trans (h : w.IsClear i j) (h' : w.IsClear j k) : w.IsClear i k := by
  refine ⟨Nat.le_trans h.1 h'.1, fun n hi hk => ?_⟩
  by_cases hj : n < j
  · exact h.2 n hi hj
  · exact h'.2 n (Nat.le_of_not_lt hj) hk

theorem IsClear.succ (h : w.IsClear i j) (hstall : w.faults j ≠ some .stall)
    (hrefuse : ∀ message, w.faults j ≠ some (.refuse message)) : w.IsClear i (j + 1) := by
  refine h.trans ⟨Nat.le_succ j, fun n hj hn => ?_⟩
  cases Nat.le_antisymm (Nat.le_of_lt_succ hn) hj
  exact ⟨hstall, hrefuse⟩

theorem Among.mono {j' : Nat} {cause cause' : StoreFailure} (h : w.Among i j cause cause')
    (hj : j ≤ j') : w.Among i j' cause cause' := by
  obtain ⟨n, hclear, hn, hmirrored⟩ := h
  exact ⟨n, hclear, Nat.lt_of_lt_of_le hn hj, hmirrored⟩

theorem Among.before {cause cause' : StoreFailure} (h : w.Among k j cause cause')
    (hik : w.IsClear i k) : w.Among i j cause cause' := by
  obtain ⟨n, hclear, hn, hmirrored⟩ := h
  exact ⟨n, hik.trans hclear, hn, hmirrored⟩

theorem Failed.mono {j' : Nat} {failure failure' : EvaluationFailure}
    (h : w.Failed i j failure failure') (hj : j ≤ j') : w.Failed i j' failure failure' := by
  cases h with
  | rejected h => exact .rejected h
  | unavailable h => exact .unavailable (h.mono hj)

theorem Tells.eq {key : String} {found found' : Option Json} (h : w.Tells key found found')
    (hkey : Key.kindLetter key ≠ some 't') : found = found' := by
  refine h.resolve_right ?_
  rintro ⟨device, trigger, -, -, rfl, -⟩
  exact hkey (Key.kindLetter_trail device trigger)

/-- Whatever there is under a key, the entries that it holds are told in both runs. -/
theorem Tells.entriesOf {key : String} {found found' : Option Json}
    (h : w.Tells key found found') :
    List.Forall₂ w.Retells (Trail.entriesOf found) (Trail.entriesOf found') := by
  rcases h with rfl | ⟨-, -, entries, entries', -, rfl, rfl, hentries⟩
  · exact List.forall₂_same.mpr fun entry _ => .same entry
  · exact hentries

namespace Alike

variable {m m' : Memory} (h : w.Alike m m')

include h

theorem record (call : Memory.Call) :
    w.Alike { m with link := m.link.record call } { m' with link := m'.link.record call } :=
  { h with calls := congrArg (· ++ [call]) h.calls }

theorem note (change change' : Memory.Change) : w.Alike (m.note change) (m'.note change') :=
  { h with }

theorem put {key : String} {document document' : Json}
    (hd : w.Tells key (some document) (some document')) :
    w.Alike { m with documents := m.documents.insert key document }
      { m' with documents := m'.documents.insert key document' } := by
  refine { h with documents := fun other => ?_ }
  show w.Tells other (Dict.get? (m.documents.insert key document) other)
    (Dict.get? (m'.documents.insert key document') other)
  rw [Dict.get?_insert, Dict.get?_insert]
  split
  · next hkey => exact hkey ▸ hd
  · exact h.documents other

theorem merge (device : String) (attributes : Dict Json) :
    w.Alike { m with reported := Memory.merge m.reported device attributes }
      { m' with reported := Memory.merge m'.reported device attributes } :=
  { h with reported := congrArg (Memory.merge · device attributes) h.reported }

theorem post (notice : String × String) :
    w.Alike { m with notices := m.notices ++ [notice] }
      { m' with notices := m'.notices ++ [notice] } :=
  { h with notices := congrArg (· ++ [notice]) h.notices }

end Alike

end Silencing

/-! ### Actions that do alike -/

/-- The milliseconds left before the deadline. -/
def Session.timeLeft {σ : Type} (s : Session σ) : Option Int :=
  s.deadline.map fun due : Nat => (due : Int) - s.elapsed

theorem Session.timeLeft_elapsed_add {σ : Type} (s : Session σ) (milliseconds : Nat) :
    { s with elapsed := s.elapsed + milliseconds }.timeLeft =
      s.timeLeft.map fun left : Int => left - milliseconds := by
  rw [timeLeft, timeLeft, Option.map_map]
  refine congrArg (Option.map · s.deadline) (funext fun due => ?_)
  simp only [Function.comp_apply]
  omega

/-- Whether a wait comes to its end is told by the time left. -/
theorem Action.onSession_wait {σ ε : Type} (milliseconds : Nat) (s : Session σ) :
    (wait milliseconds : Action σ ε Unit).onSession s =
      if ∀ left ∈ s.timeLeft, (milliseconds : Int) ≤ left then
        (.ok (), { s with elapsed := s.elapsed + milliseconds })
      else (.error .unanswered, s) := by
  rcases s with ⟨stores, elapsed, _ | due⟩
  · rw [if_pos nofun]
    rfl
  · have hfits : (∀ left ∈ (Session.mk stores elapsed (some due)).timeLeft,
        (milliseconds : Int) ≤ left) ↔ elapsed + milliseconds ≤ due := by
      simp only [Session.timeLeft, Option.map_some, Option.mem_some_iff, forall_eq']
      omega
    simp only [hfits]
    rfl

/-- The number of calls made. -/
def Session.callCount (s : Session Memory) : Nat := s.stores.link.calls.length

namespace Silencing

variable (w : Silencing)

/-- The sessions of the two runs. Within a call they have the same time left. -/
structure Beside (inCall : Prop) (s s' : Session Memory) : Prop where
  stores : w.Alike s.stores s'.stores
  timeLeft : inCall → s.timeLeft = s'.timeLeft

/-- Two actions do alike where `k` calls were made before. How they end may depend on the number of
calls that were made then. -/
def Mirrors {ε α : Type} (inCall : Prop) (k : Nat) (X : Nat → Stop ε → Stop ε → Prop)
    (V : Nat → α → α → Prop) (a a' : Action Memory ε α) : Prop :=
  ∀ s s', w.Beside inCall s s' → s.callCount = k →
    Ends (X (a.onSession s).2.callCount) (V (a.onSession s).2.callCount) (a.onSession s).1
        (a'.onSession s').1 ∧
      w.Beside inCall (a.onSession s).2 (a'.onSession s').2 ∧
      k ≤ (a.onSession s).2.callCount

/-- Two values go together, and no call from the one numbered `i` on has failed. -/
def Through {α : Type} (i : Nat) (R : α → α → Prop) (j : Nat) (x x' : α) : Prop :=
  w.IsClear i j ∧ R x x'

variable {w} {ε ε' α β : Type} {inCall : Prop} {i k : Nat} {X : Nat → Stop ε → Stop ε → Prop}
  {F : Nat → ε → ε → Prop} {G : Nat → ε' → ε' → Prop} {V V' : Nat → α → α → Prop}
  {W : Nat → β → β → Prop} {a a' : Action Memory ε α} {f f' : α → Action Memory ε β}

namespace Mirrors

/-- Actions that end at once. -/
theorem still {r r' : Except (Stop ε) α} (ha : ∀ s, a.onSession s = (r, s))
    (ha' : ∀ s, a'.onSession s = (r', s)) (h : Ends (X k) (V k) r r') :
    w.Mirrors inCall k X V a a' := by
  rintro s s' hs rfl
  rw [ha, ha']
  exact ⟨h, hs, Nat.le_refl _⟩

theorem pure {x x' : α} (h : V k x x') :
    w.Mirrors inCall k X V (Pure.pure x) (Pure.pure x') :=
  still (fun _ => rfl) (fun _ => rfl) (.ok h)

theorem ofExcept {r r' : Except ε α} (h : Results (F k) (V k) r r') :
    w.Mirrors inCall k (fun j => Stops (F j)) V (Action.ofExcept r) (Action.ofExcept r') := by
  cases h with
  | ok hx => exact pure hx
  | error hcause => exact still (fun _ => rfl) (fun _ => rfl) (.error (.failed hcause))

theorem inCalendar (h : w.IsClear i k) (x : Option α) :
    w.Mirrors inCall k (fun j => Stops (F j)) (w.Through i Eq) (Action.inCalendar x)
      (Action.inCalendar x) := by
  cases x with
  | none => exact still (fun _ => rfl) (fun _ => rfl) (.error .outsideCalendar)
  | some x => exact pure ⟨h, rfl⟩

theorem stores (h : w.IsClear i k) :
    w.Mirrors inCall k X (w.Through i w.Alike) Action.stores Action.stores := by
  rintro s s' hs rfl
  exact ⟨.ok ⟨h, hs.stores⟩, hs, Nat.le_refl _⟩

/-- Both actions change the stores and make no calls. -/
theorem modifyStores {g g' : Memory → Memory} (h : w.IsClear i k)
    (hg : ∀ m m', w.Alike m m' → w.Alike (g m) (g' m'))
    (hcalls : ∀ m, (g m).link.calls = m.link.calls) :
    w.Mirrors inCall k X (w.Through i Eq) (Action.modifyStores g) (Action.modifyStores g') := by
  rintro s s' hs rfl
  have hcount : ((Action.modifyStores g : Action Memory ε Unit).onSession s).2.callCount =
      s.callCount := congrArg List.length (hcalls s.stores)
  rw [hcount]
  exact ⟨.ok ⟨h, rfl⟩, ⟨hg _ _ hs.stores, hs.timeLeft⟩, Nat.le_refl _⟩

theorem imp (ha : w.Mirrors inCall k X V a a') (h : ∀ j x x', V j x x' → V' j x x') :
    w.Mirrors inCall k X V' a a' := by
  intro s s' hs hk
  obtain ⟨hends, ht⟩ := ha s s' hs hk
  exact ⟨hends.imp (h _), ht⟩

/-- Actions in sequence. The second ones begin once the calls of the first ones were made. -/
theorem bind (ha : w.Mirrors inCall k X V a a')
    (hf : ∀ j x x', k ≤ j → V j x x' → w.Mirrors inCall j X W (f x) (f' x')) :
    w.Mirrors inCall k X W (a >>= f) (a' >>= f') := by
  intro s s' hs hk
  obtain ⟨hends, ht, hle⟩ := ha s s' hs hk
  rcases hran : a.onSession s with ⟨r, t⟩
  rcases hran' : a'.onSession s' with ⟨r', t'⟩
  rw [hran, hran'] at hends ht
  rw [hran] at hle
  cases hends with
  | ok hx =>
    obtain ⟨hends', hu, hle'⟩ := hf _ _ _ hle hx t t' ht rfl
    rw [Action.onSession_bind_ok hran, Action.onSession_bind_ok hran']
    exact ⟨hends', hu, Nat.le_trans hle hle'⟩
  | error hstop =>
    rw [Action.onSession_bind_error hran, Action.onSession_bind_error hran']
    exact ⟨.error hstop, ht, hle⟩

/-- Actions that go on with the same value. -/
theorem next (ha : w.Mirrors inCall k X (w.Through i Eq) a a')
    (hf : ∀ {j} x, w.IsClear i j → w.Mirrors inCall j X W (f x) (f' x)) :
    w.Mirrors inCall k X W (a >>= f) (a' >>= f') := by
  refine ha.bind fun j x x' _ hx => ?_
  obtain ⟨hclear, rfl⟩ := hx
  exact hf x hclear

theorem attempt (ha : w.Mirrors inCall k (fun j => Stops (F j)) V a a') :
    w.Mirrors inCall k (fun j => Stops (G j)) (fun j => Results (F j) (V j)) (Action.attempt a)
      (Action.attempt a') := by
  intro s s' hs hk
  obtain ⟨hends, ht⟩ := ha s s' hs hk
  rw [Action.onSession_attempt, Action.onSession_attempt]
  exact ⟨hends.attempted, ht⟩

theorem mapFailure {g : ε → ε'} (ha : w.Mirrors inCall k (fun j => Stops (F j)) V a a')
    (hg : ∀ j cause cause', F j cause cause' → G j (g cause) (g cause')) :
    w.Mirrors inCall k (fun j => Stops (G j)) V (a.mapFailure g) (a'.mapFailure g) := by
  intro s s' hs hk
  obtain ⟨hends, ht⟩ := ha s s' hs hk
  rw [Action.onSession_mapFailure, Action.onSession_mapFailure]
  exact ⟨hends.renamed (hg _), ht⟩

end Mirrors

/-! ### Store calls -/

variable (w) in
/-- Why store calls stop in the two runs, before a missing answer has become a failure. -/
inductive Hushed (i j : Nat) : Stop StoreFailure → Stop StoreFailure → Prop
  | silenced {n : Nat} {message : String} (hclear : w.IsClear i n) (hj : n < j)
    (hchosen : w.chosen n = true) (hfault : w.faults n = some (.refuse message)) :
    Hushed i j (.failed (.backend message)) .unanswered
  | refused {n : Nat} {message : String} (hclear : w.IsClear i n) (hj : n < j)
    (hchosen : w.chosen n = false) (hfault : w.faults n = some (.refuse message)) :
    Hushed i j (.failed (.backend message)) (.failed (.backend message))
  | late {n : Nat} (hclear : w.IsClear i n) (hj : n < j)
    (hfault : ∀ message, w.faults n ≠ some (.refuse message)) :
    Hushed i j .unanswered .unanswered

/-- Under a deadline a call that is not answered fails. -/
theorem Hushed.onTime {R : α → α → Prop} {r r' : Except (Stop StoreFailure) α} {j : Nat}
    (call : StoreCall) (h : Ends (w.Hushed i j) R r r') :
    Ends (Stops (w.Among i j)) R (Action.onTime (.timeout call w.timeout) r)
      (Action.onTime (.timeout call w.timeout) r') := by
  cases h with
  | ok hx => exact .ok hx
  | error hstop =>
    cases hstop with
    | silenced hclear hj hchosen hfault =>
      exact .error (.failed ⟨_, hclear, hj, .silenced hchosen hfault⟩)
    | refused hclear hj hchosen hfault =>
      exact .error (.failed ⟨_, hclear, hj, .refused hchosen hfault⟩)
    | late hclear hj hfault => exact .error (.failed ⟨_, hclear, hj, .late hfault⟩)

/-- Under a deadline it does not matter how much time has passed before. -/
theorem Mirrors.timed {b b' : Action Memory StoreFailure α} (call : StoreCall)
    (h : w.Mirrors True k (fun j => w.Hushed i j) V b b') :
    w.Mirrors False k (fun j => Stops (w.Among i j)) V (call.timed w.timeout b)
      (call.timed w.timeout b') := by
  intro s s' hs hk
  have hbeside : w.Beside True { s with deadline := some (s.elapsed + w.timeout) }
      { s' with deadline := some (s'.elapsed + w.timeout) } := by
    refine ⟨hs.stores, fun _ => ?_⟩
    simp only [Session.timeLeft, Option.map_some, Option.some.injEq]
    omega
  obtain ⟨hends, ht, hle⟩ := h _ _ hbeside hk
  obtain ⟨hresult, hstores⟩ :=
    Action.onSession_within w.timeout (.timeout call w.timeout) b s
  obtain ⟨hresult', hstores'⟩ :=
    Action.onSession_within w.timeout (.timeout call w.timeout) b' s'
  rw [StoreCall.timed, StoreCall.timed, hresult, hresult', Session.callCount, hstores]
  exact ⟨Hushed.onTime call hends, ⟨by rw [hstores, hstores']; exact ht.stores, False.elim⟩, hle⟩

/-- Waiting ends alike where the same time is left. -/
theorem wait_mirrors {n milliseconds : Nat} (h : w.IsClear i n)
    (hfault : w.faults n = some (.delay milliseconds)) :
    w.Mirrors True (n + 1) (fun j => w.Hushed i j) (w.Through i Eq) (Action.wait milliseconds)
      (Action.wait milliseconds) := by
  intro s s' hs hk
  have hleft : s'.timeLeft = s.timeLeft := (hs.timeLeft trivial).symm
  rw [Action.onSession_wait, Action.onSession_wait, hleft]
  split
  · have hbeside : w.Beside True { s with elapsed := s.elapsed + milliseconds }
        { s' with elapsed := s'.elapsed + milliseconds } := by
      refine ⟨hs.stores, fun _ => ?_⟩
      rw [Session.timeLeft_elapsed_add, Session.timeLeft_elapsed_add, hleft]
    have hclear : w.IsClear i s.callCount :=
      hk ▸ h.succ (by simp [hfault]) (by simp [hfault])
    exact ⟨.ok ⟨hclear, rfl⟩, hbeside, Nat.le_of_eq hk.symm⟩
  · have hlt : n < s.callCount := hk ▸ Nat.lt_succ_self n
    exact ⟨.error (.late h hlt (by simp [hfault])), hs, Nat.le_of_eq hk.symm⟩

/-- A call meets its faults in the two runs. -/
theorem meet_mirrors {n : Nat} (h : w.IsClear i n) :
    w.Mirrors True (n + 1) (fun j => w.Hushed i j) (w.Through i Eq)
      (Link.meet StoreFailure.backend (w.faults n))
      (Link.meet StoreFailure.backend (w.silenced n)) := by
  have hlt : n < n + 1 := Nat.lt_succ_self n
  cases hfault : w.faults n with
  | none =>
    rw [silenced, hfault]
    exact .pure ⟨h.succ (by simp [hfault]) (by simp [hfault]), rfl⟩
  | some fault =>
    cases fault with
    | refuse message =>
      cases hchosen : w.chosen n with
      | true =>
        rw [silenced, hfault, hchosen]
        exact .still (fun _ => rfl) (fun _ => rfl) (.error (.silenced h hlt hchosen hfault))
      | false =>
        rw [silenced, hfault, hchosen]
        exact .still (fun _ => rfl) (fun _ => rfl) (.error (.refused h hlt hchosen hfault))
    | stall =>
      rw [silenced, hfault]
      exact .still (fun _ => rfl) (fun _ => rfl) (.error (.late h hlt (by simp [hfault])))
    | delay milliseconds =>
      rw [silenced, hfault]
      exact wait_mirrors h hfault

/-- A call over the link is made in both runs. -/
theorem reach_mirrors (call : Memory.Call) (h : w.IsClear i k) :
    w.Mirrors True k (fun j => w.Hushed i j) (w.Through i Eq) (Memory.reach call)
      (Memory.reach call) := by
  rintro s s' hs rfl
  have hrun (s : Session Memory) : (Memory.reach call).onSession s =
      (Link.meet StoreFailure.backend s.stores.link.next).onSession
        { s with stores := { s.stores with link := s.stores.link.record call } } := rfl
  have hnext : s.stores.link.next = w.faults s.callCount := congrFun hs.stores.faults _
  have hnext' : s'.stores.link.next = w.silenced s.callCount := by
    rw [Link.next, hs.stores.silenced, hs.stores.calls]
    rfl
  have hrecorded : w.Beside True
      { s with stores := { s.stores with link := s.stores.link.record call } }
      { s' with stores := { s'.stores with link := s'.stores.link.record call } } :=
    ⟨hs.stores.record call, hs.timeLeft⟩
  rw [hrun, hrun, hnext, hnext']
  -- the call is on record before it meets its fault, so it counts among those made
  obtain ⟨hends, ht, hle⟩ := meet_mirrors h _ _ hrecorded List.length_append
  exact ⟨hends, ht, Nat.le_trans (Nat.le_succ _) hle⟩

theorem getDocument_mirrors (key : String) (h : w.IsClear i k) :
    w.Mirrors True k (fun j => w.Hushed i j) (w.Through i (w.Tells key))
      (Memory.documentStore.get key) (Memory.documentStore.get key) := by
  exact (reach_mirrors _ h).next fun _ hj => (Mirrors.stores hj).bind
    fun _ _ _ _ ⟨hj', hm⟩ => .pure ⟨hj', hm.documents key⟩

theorem putDocument_mirrors {key : String} {document document' : Json}
    (hd : w.Tells key (some document) (some document')) (h : w.IsClear i k) :
    w.Mirrors True k (fun j => w.Hushed i j) (w.Through i Eq)
      (Memory.documentStore.put key document) (Memory.documentStore.put key document') :=
  (reach_mirrors _ h).next fun _ hj =>
    .modifyStores hj (fun _ _ hm => (hm.put hd).note _ _) fun _ => rfl

theorem update_mirrors (b : Backing) (device : String) (attributes : Dict Json)
    (h : w.IsClear i k) : w.Mirrors True k (fun j => w.Hushed i j) (w.Through i Eq)
      ((Memory.shadows b).update device attributes)
      ((Memory.shadows b).update device attributes) := by
  cases b with
  | apart =>
    exact (reach_mirrors _ h).next fun _ hj =>
      .modifyStores hj (fun _ _ hm => (hm.merge _ _).note _ _) fun _ => rfl
  | documents =>
    refine (reach_mirrors _ h).next fun _ hj => Mirrors.next ?_ fun _ hj' =>
      .modifyStores hj' (fun _ _ hm => hm.note _ _) fun _ => rfl
    refine (getDocument_mirrors _ hj).bind fun j found found' _ ⟨hj', hfound⟩ => ?_
    cases hfound.eq (by simp)
    exact putDocument_mirrors (.inl rfl) hj'

/-- A message is not posted over the link. -/
theorem post_mirrors (device text : String) :
    w.Mirrors inCall k (fun j => Stops (w.Through k Eq j)) (w.Through k Eq)
      (Memory.notifier.post device text) (Memory.notifier.post device text) := by
  refine (Mirrors.stores (IsClear.refl k)).bind fun j m m' _ ⟨hj, hm⟩ => ?_
  refine (Mirrors.modifyStores hj (fun _ _ h => (h.post _).note _ _) fun _ => rfl).next
    fun _ hj' => ?_
  have haccepted : m'.accepts m'.notices.length = m.accepts m.notices.length := by
    rw [hm.accepts, hm.notices]
  simp only [haccepted]
  split
  · exact .pure ⟨hj', rfl⟩
  · exact .still (fun _ => rfl) (fun _ => rfl) (.error (.failed ⟨hj', rfl⟩))

/-! ### Steps of an evaluation -/

theorem Mirrors.inStep {step : Step} {b b' : Action Memory StoreFailure α}
    (h : w.Mirrors inCall k (fun j => Stops (w.Among i j)) V b b') :
    w.Mirrors inCall k (fun j => Stops (w.Failed i j)) V (Evaluator.inStep step b)
      (Evaluator.inStep step b') :=
  h.mapFailure fun _ _ _ h => .unavailable h

theorem retells_entryOf {s : Submission} {recorded : Instant}
    {r r' : Except EvaluationFailure Outcome} (h : Results (w.Failed i k) (w.Through i Eq k) r r') :
    w.Retells (Evaluator.entryOf s r recorded).toJson (Evaluator.entryOf s r' recorded).toJson := by
  cases h with
  | ok houtcome => exact houtcome.2 ▸ .same _
  | error hfailure =>
    cases hfailure with
    | rejected => exact .same _
    | unavailable hcause => exact .failed hcause

/-- The calls of an evaluator do alike in the two runs. -/
structure Serves (w : Silencing) (e : Evaluator Memory) : Prop where
  get : ∀ {i k : Nat} (key : String), w.IsClear i k →
    w.Mirrors False k (fun j => Stops (w.Among i j)) (w.Through i (w.Tells key))
      (e.documents.get key) (e.documents.get key)
  put : ∀ {i k : Nat} {key : String} {document document' : Json},
    w.Tells key (some document) (some document') → w.IsClear i k →
    w.Mirrors False k (fun j => Stops (w.Among i j)) (w.Through i Eq)
      (e.documents.put key document) (e.documents.put key document')
  update : ∀ {i k : Nat} (device : String) (attributes : Dict Json), w.IsClear i k →
    w.Mirrors False k (fun j => Stops (w.Among i j)) (w.Through i Eq)
      (e.shadows.update device attributes) (e.shadows.update device attributes)
  notifier_eq : e.notifier = Memory.notifier

theorem serves_of_inMemory? {b : Backing} {settings : Settings.Evaluation} {e : Evaluator Memory}
    (h : Evaluator.inMemory? b settings = some e) (hw : w.timeout = settings.storeTimeout) :
    w.Serves e := by
  obtain ⟨retention, minCooldown, rfl⟩ := Evaluator.eq_of_inMemory? h
  rw [← hw]
  exact {
    get := fun key hk => (getDocument_mirrors key hk).timed _
    put := fun hd hk => (putDocument_mirrors hd hk).timed _
    update := fun device attributes hk => (update_mirrors b device attributes hk).timed _
    notifier_eq := rfl }

namespace Serves

variable {e : Evaluator Memory} (he : w.Serves e)

include he

theorem get_eq {key : String} (hkey : Key.kindLetter key ≠ some 't') (h : w.IsClear i k) :
    w.Mirrors False k (fun j => Stops (w.Among i j)) (w.Through i Eq)
      (e.documents.get key) (e.documents.get key) :=
  (he.get key h).imp fun _ _ _ ⟨hj, hfound⟩ => ⟨hj, hfound.eq hkey⟩

theorem ingest (device : String) (reading : Reading) (now : Instant) (h : w.IsClear i k) :
    w.Mirrors False k (fun j => Stops (w.Among i j)) (w.Through i Eq)
      (History.ingest e.documents e.retention device reading now)
      (History.ingest e.documents e.retention device reading now) := by
  refine ((he.get_eq (by simp) h).next fun _ hj => .pure ⟨hj, rfl⟩).next fun records hj => ?_
  refine (Mirrors.inCalendar hj _).next fun horizon hj => ?_
  exact (he.put (.inl rfl) hj).next fun _ hj => .pure ⟨hj, rfl⟩

theorem suppresses (device trigger : String) (period : Span) (now : Instant)
    (h : w.IsClear i k) : w.Mirrors False k (fun j => Stops (w.Among i j)) (w.Through i Eq)
      (Cooldown.suppresses e.documents e.minCooldown device trigger period now)
      (Cooldown.suppresses e.documents e.minCooldown device trigger period now) := by
  refine ((he.get_eq (by simp) h).next fun _ hj => .pure ⟨hj, rfl⟩).next fun last hj => ?_
  split
  · exact .pure ⟨hj, rfl⟩
  · exact (he.put (.inl rfl) hj).next fun _ hj => .pure ⟨hj, rfl⟩

/-- The announcement tells only whether the write has failed, which it does in both runs. -/
theorem fire (device trigger : String) (certainty : Float) (now : Instant) (h : w.IsClear i k) :
    w.Mirrors False k (fun j => Stops (w.Among i j)) (w.Through i Eq)
      (Firing.fire e.shadows e.notifier device trigger certainty now)
      (Firing.fire e.shadows e.notifier device trigger certainty now) := by
  rw [Firing.fire, he.notifier_eq]
  refine (he.update device _ h).attempt.bind fun j r r' _ hr => ?_
  have hok : r.isOk = r'.isOk := by cases hr <;> rfl
  rw [hok]
  refine (post_mirrors device _).attempt.bind fun j' _ _ hj' hposted => .ofExcept ?_
  have hclear : w.IsClear j j' := by
    cases hposted with
    | ok hx | error hx => exact hx.1
  cases hr with
  | ok hx => exact .ok ⟨hx.1.trans hclear, hx.2⟩
  | error hcause => exact .error (hcause.mono hj')

theorem settle (a : Accepted) (certainty : Float) (h : w.IsClear i k) :
    w.Mirrors False k (fun j => Stops (w.Failed i j)) (w.Through i Eq) (e.settle a certainty)
      (e.settle a certainty) := by
  refine (he.suppresses _ _ _ _ h).inStep.next fun suppressed hj => ?_
  split
  · exact .pure ⟨hj, rfl⟩
  · exact (he.fire _ _ _ _ hj).inStep.next fun _ hj => .pure ⟨hj, rfl⟩

theorem conclude (a : Accepted) (v : Verdict) (h : w.IsClear i k) :
    w.Mirrors False k (fun j => Stops (w.Failed i j)) (w.Through i Eq) (e.conclude a v)
      (e.conclude a v) := by
  cases v with
  | pending => exact .pure ⟨h, rfl⟩
  | below certainty => exact .pure ⟨h, rfl⟩
  | satisfied certainty => exact he.settle a certainty h

theorem run (s : Submission) (received : Instant) (h : w.IsClear i k) :
    w.Mirrors False k (fun j => Stops (w.Failed i j)) (w.Through i Eq) (e.run s received)
      (e.run s received) := by
  have haccept : w.Mirrors False k (fun j => Stops (w.Failed i j)) (w.Through i Eq)
      (Action.ofExcept (e.accept s received)) (Action.ofExcept (e.accept s received)) := by
    refine .ofExcept ?_
    cases haccept : e.accept s received with
    | ok a => exact .ok ⟨h, rfl⟩
    | error failure => exact .error (.rejected (Evaluator.isRejection_of_accept haccept))
  refine haccept.next fun a hj => ?_
  refine (he.ingest _ _ _ hj).inStep.next fun records hj => ?_
  exact (he.conclude a _ hj).next fun kind hj => .pure ⟨hj, rfl⟩

theorem record (device trigger : String) {entry entry' : Trail.Entry}
    (hentry : w.Retells entry.toJson entry'.toJson) (h : w.IsClear i k) :
    w.Mirrors False k (fun j => Stops (w.Among i j)) (w.Through i Eq)
      (Trail.record e.documents e.trailCapacity device trigger entry)
      (Trail.record e.documents e.trailCapacity device trigger entry') := by
  refine (he.get _ h).bind fun j found found' _ ⟨hj, hfound⟩ => ?_
  have hjoined : List.Forall₂ w.Retells (Trail.entriesOf found ++ [entry.toJson])
      (Trail.entriesOf found' ++ [entry'.toJson]) :=
    List.rel_append hfound.entriesOf (.cons hentry .nil)
  refine he.put (.inr ⟨device, trigger, _, _, rfl, rfl, rfl, ?_⟩) hj
  rw [Trail.newest, Trail.newest, hjoined.length_eq]
  exact List.forall₂_drop _ hjoined

/-- The entry of a failure tells its cause, so that the entries may differ. -/
theorem enterTrail (s : Submission) {r r' : Except EvaluationFailure Outcome} (recorded : Instant)
    (h : Results (w.Failed i k) (w.Through i Eq k) r r') :
    w.Mirrors False k (fun j => Stops (w.Failed i j)) (fun _ => Eq) (e.enterTrail s r recorded)
      (e.enterTrail s r' recorded) := by
  rw [Evaluator.enterTrail, Evaluator.enterTrail]
  split
  · -- the evaluation may have failed before, so the calls for the entry are looked at on their own
    refine (he.record s.device s.trigger (retells_entryOf h) (IsClear.refl k)).attempt.bind
      fun j x x' hj hx => .ofExcept ?_
    cases h with
    | error hfailure => exact .error (hfailure.mono hj)
    | ok houtcome =>
      cases hx with
      | ok => exact .ok houtcome.2
      | error hcause => exact .error (.unavailable (hcause.before houtcome.1))
  · refine .ofExcept ?_
    cases h with
    | ok houtcome => exact .ok houtcome.2
    | error hfailure => exact .error hfailure

/-- An evaluation does alike in the two runs. -/
theorem evaluate (s : Submission) (clock : ClockReadings) :
    w.Mirrors False k (fun j => Stops (w.Failed k j)) (fun _ => Eq) (e.evaluate s clock)
      (e.evaluate s clock) :=
  (he.run s clock.received (IsClear.refl k)).attempt.bind fun _ _ _ _ hr =>
    he.enterTrail s clock.recorded hr

end Serves

/-! ### Runs -/

/-- An episode of the first run and its twin in the second one. -/
structure IsTwin (w : Silencing) (ep ep' : Episode) : Prop where
  request : ep'.request = ep.request
  result : Ends (Stops (w.Failed ep.before.callCount ep.after.callCount)) Eq ep.result ep'.result
  stores : w.Alike ep.after.stores ep'.after.stores

theorem Serves.episodes {e : Evaluator Memory} (he : w.Serves e) {s s' : Session Memory}
    (hs : w.Alike s.stores s'.stores) (requests : List Request) :
    List.Forall₂ w.IsTwin (e.episodes s requests) (e.episodes s' requests) := by
  induction requests generalizing s s' with
  | nil => exact .nil
  | cons request rest ih =>
    obtain ⟨hresult, ht, -⟩ := he.evaluate request.submission request.clock s s'
      ⟨hs, False.elim⟩ rfl
    exact .cons ⟨rfl, hresult, ht.stores⟩ (ih ht.stores)

end Silencing

/-- The faults of a session, with some calls that are never answered where they were refused. -/
def Session.silencing (s : Session Memory) (chosen : Nat → Bool) (timeout : Nat) : Silencing where
  faults := s.stores.link.faults
  chosen
  timeout

/-- A session on the same stores, where some calls are never answered that would be refused. -/
def Session.silenced (s : Session Memory) (chosen : Nat → Bool) : Session Memory :=
  { s with stores := { s.stores with
    link := { s.stores.link with faults := (s.silencing chosen 0).silenced } } }

/-- Of two runs that differ in that some calls are never answered that would be refused, each
episode has its twin. -/
theorem Evaluator.episodes_silenced {b : Backing} {settings : Settings.Evaluation}
    {e : Evaluator Memory} (he : inMemory? b settings = some e) (chosen : Nat → Bool)
    (start : Session Memory) (requests : List Request) :
    List.Forall₂ (start.silencing chosen settings.storeTimeout).IsTwin
      (e.episodes start requests) (e.episodes (start.silenced chosen) requests) := by
  have hserves : (start.silencing chosen settings.storeTimeout).Serves e :=
    Silencing.serves_of_inMemory? he rfl
  refine hserves.episodes ?_ requests
  exact {
    faults := rfl
    silenced := rfl
    calls := rfl
    documents := fun _ => .inl rfl
    reported := rfl
    notices := rfl
    accepts := rfl }

/-- The write of the first fire is refused in the first run and never answered in the second one,
which goes on to the fire after it. -/
theorem Evaluator.episodes_silenced_of_refusing :
    let requests := [Request.sample "2024-05-01T10:00:00Z", .sample "2024-05-01T10:01:10Z",
      .sample "2024-05-01T10:02:20Z"]
    List.Forall₂ (Session.refusing.silencing (fun _ => true) 5000).IsTwin
        ((standard .documents).episodes .refusing requests)
        ((standard .documents).episodes (Session.refusing.silenced fun _ => true) requests) ∧
      ((standard .documents).episodes (Session.refusing.silenced fun _ => true) requests).map
        Episode.stop? =
          [none, some (.failed (.storeUnavailable .state (.timeout .updateState 5000))), none] := by
  intro requests
  have htwins := episodes_silenced (inMemory?_default .documents) (fun _ => true) .refusing requests
  exact ⟨htwins, by decide +kernel⟩

end TriggerWatch
