import Mathlib.Data.Finset.Card
import TriggerWatch.Turnstile
import TriggerWatch.Proofs.Dictionaries

/-!
# Turns are exclusive

Tasks take their turns on devices, and the lock of a device exists only while some task is after the
device. What the locks are for does not depend on the order of the moves: whoever waits or has his
turn finds the lock that the device still has, and in front of a task that has its turn nobody is
left who has or awaits one on the same device. From this follow both that turns exclude each other
and that the first in line need not wait.

## Main definitions

- `Turnstile.line` — the tasks that have or await their turn on a device, in order
- `Turnstile.wanted` — the devices that some task has or awaits
- `Turnstile.Ticket.upcoming` — the move that a task makes next
- `Turnstile.Moves` — what each move does to the tickets
- `Turnstile.IsSound` — the invariant of all moves

## Main statements

- `Turnstile.IsSound.next` — every move keeps the invariant
- `Turnstile.line_of_moves` — a move leaves the lines of other devices
- `Turnstile.turns_of_moves` — what holds after any moves
-/

namespace TriggerWatch.Turnstile

variable {t t' : Turnstile} {k : Ticket} {as bs : List Ticket}

def line (t : Turnstile) (device : String) : List Ticket :=
  t.tickets.filter fun k => k.device == device && k.stage != .leaving

def wanted (t : Turnstile) : Finset String :=
  ((t.tickets.filter fun k => k.stage != .leaving).map Ticket.device).toFinset

def Ticket.upcoming (k : Ticket) : Move :=
  match k.stage with
  | .waiting => .enter k.task
  | .holding => .unlock k.task
  | .leaving => .leave k.task

/-- The device that a move is about. -/
def Move.device? (t : Turnstile) : Move → Option String
  | .ask _ device => some device
  | .enter task => (t.ticket? task).map Ticket.device
  | .unlock task => (t.ticket? task).map Ticket.device
  | .leave task => (t.ticket? task).map Ticket.device

/-! ### Moves, ticket by ticket -/

/-- What a move makes of a turnstile. A ticket stays in its place until its task goes away. -/
inductive Moves (t : Turnstile) : Move → Turnstile → Prop
  | find {task device : String} {lock : Nat} (hnew : ∀ x ∈ t.tickets, x.task ≠ task)
    (hlock : Dict.get? t.locks device = some lock) :
    Moves t (.ask task device) { t with tickets := t.tickets ++ [⟨task, device, lock, .waiting⟩] }
  | make {task device : String} (hnew : ∀ x ∈ t.tickets, x.task ≠ task)
    (hlock : Dict.get? t.locks device = none) :
    Moves t (.ask task device) {
      locks := Dict.insert t.locks device t.made
      tickets := t.tickets ++ [⟨task, device, t.made, .waiting⟩]
      made := t.made + 1 }
  | enter {k : Ticket} {as bs : List Ticket} (ht : t.tickets = as ++ k :: bs)
    (hk : k.stage = .waiting) (hfirst : ∀ x ∈ as, x.lock = k.lock → x.stage ≠ .waiting)
    (hfree : ∀ x ∈ t.tickets, x.lock = k.lock → x.stage ≠ .holding) :
    Moves t (.enter k.task) { t with tickets := as ++ { k with stage := .holding } :: bs }
  | unlock {k : Ticket} {as bs : List Ticket} (ht : t.tickets = as ++ k :: bs)
    (hk : k.stage = .holding) :
    Moves t (.unlock k.task) { t with tickets := as ++ { k with stage := .leaving } :: bs }
  | leave {k : Ticket} {as bs : List Ticket} (ht : t.tickets = as ++ k :: bs)
    (hk : k.stage = .leaving)
    (hkeep : ∀ lock, Dict.get? t.locks k.device = some lock →
      ∃ x ∈ as ++ bs, x.lock = lock ∧ x.stage ≠ .leaving) :
    Moves t (.leave k.task) { t with tickets := as ++ bs }
  | close {k : Ticket} {as bs : List Ticket} {lock : Nat} (ht : t.tickets = as ++ k :: bs)
    (hk : k.stage = .leaving) (hlock : Dict.get? t.locks k.device = some lock)
    (hlast : ∀ x ∈ as ++ bs, x.lock = lock → x.stage = .leaving) :
    Moves t (.leave k.task)
      { t with tickets := as ++ bs, locks := Dict.erase t.locks k.device }

theorem ticket?_eq_none_iff {task : String} :
    t.ticket? task = none ↔ ∀ x ∈ t.tickets, x.task ≠ task := by
  simp [ticket?]

/-- No other ticket is that of the same task. -/
theorem task_ne (hd : (t.tickets.map Ticket.task).Nodup) (ht : t.tickets = as ++ k :: bs) :
    (∀ x ∈ as, x.task ≠ k.task) ∧ ∀ x ∈ bs, x.task ≠ k.task := by
  rw [List.Nodup, List.pairwise_map, ht, List.pairwise_append, List.pairwise_cons] at hd
  obtain ⟨-, ⟨hbs, -⟩, has⟩ := hd
  exact ⟨fun x hx => has x hx k List.mem_cons_self, fun x hx => (hbs x hx).symm⟩

theorem ticket?_eq_some_iff (hd : (t.tickets.map Ticket.task).Nodup) {task : String} :
    t.ticket? task = some k ↔ k.task = task ∧ k ∈ t.tickets := by
  constructor
  · intro h
    have htask := List.find?_some (p := fun x : Ticket => x.task == task) h
    exact ⟨eq_of_beq htask, List.mem_of_find?_eq_some h⟩
  · rintro ⟨rfl, hk⟩
    obtain ⟨as, bs, ht⟩ := List.append_of_mem hk
    rw [ticket?, List.find?_eq_some_iff_append]
    refine ⟨beq_self_eq_true _, as, bs, ht, ?_⟩
    intro x hx
    simpa using (task_ne hd ht).1 x hx

theorem advance_eq (hd : (t.tickets.map Ticket.task).Nodup) (ht : t.tickets = as ++ k :: bs)
    (stage : Stage) :
    t.advance k.task stage = { t with tickets := as ++ { k with stage } :: bs } := by
  obtain ⟨has, hbs⟩ := task_ne hd ht
  have same {xs : List Ticket} (hxs : ∀ x ∈ xs, x.task ≠ k.task) :
      xs.map (fun x => if x.task = k.task then { x with stage } else x) = xs :=
    (List.map_congr_left fun x hx => if_neg (hxs x hx)).trans (List.map_id xs)
  rw [advance, ht, List.map_append, List.map_cons, same has, same hbs, if_pos rfl]

theorem drop_eq (hd : (t.tickets.map Ticket.task).Nodup) (ht : t.tickets = as ++ k :: bs) :
    t.drop k.task = { t with tickets := as ++ bs } := by
  obtain ⟨has, hbs⟩ := task_ne hd ht
  rw [drop, ht, List.filter_append, List.filter_cons_of_neg (by simp)]
  rw [List.filter_eq_self.mpr (by simpa using has), List.filter_eq_self.mpr (by simpa using hbs)]

theorem evict_cases (t : Turnstile) (device : String) :
    (t.evict device = t ∧ ∀ lock, Dict.get? t.locks device = some lock →
      ∃ x ∈ t.tickets, x.lock = lock ∧ x.stage ≠ .leaving) ∨
    (t.evict device = { t with locks := Dict.erase t.locks device } ∧
      ∃ lock, Dict.get? t.locks device = some lock ∧
        ∀ x ∈ t.tickets, x.lock = lock → x.stage = .leaving) := by
  rw [evict]
  cases hlock : Dict.get? t.locks device with
  | none => exact .inl ⟨rfl, nofun⟩
  | some lock =>
    by_cases hrefers : (t.tickets.any fun x => x.refersTo lock) = true
    · refine .inl ⟨if_pos hrefers, ?_⟩
      rintro _ ⟨⟩
      simpa [Ticket.refersTo] using hrefers
    · refine .inr ⟨if_neg hrefers, lock, rfl, ?_⟩
      simpa [Ticket.refersTo] using hrefers

theorem next?_enter_iff {task : String} :
    t.next? (.enter task) = some t' ↔ ∃ k, t.ticket? task = some k ∧
      (t.firstWaiting? k.lock = some k ∧ ¬ t.isHeld k.lock) ∧ t.advance task .holding = t' := by
  simp only [next?, Option.bind_eq_bind, Option.bind_eq_some_iff, Option.guard_eq_some',
    Option.pure_def, Option.some.injEq, exists_const]

theorem next?_unlock_iff {task : String} :
    t.next? (.unlock task) = some t' ↔ ∃ k, t.ticket? task = some k ∧ k.stage = .holding ∧
      t.advance task .leaving = t' := by
  simp only [next?, Option.bind_eq_bind, Option.bind_eq_some_iff, Option.guard_eq_some',
    Option.pure_def, Option.some.injEq, exists_const]

theorem next?_leave_iff {task : String} :
    t.next? (.leave task) = some t' ↔ ∃ k, t.ticket? task = some k ∧ k.stage = .leaving ∧
      (t.drop task).evict k.device = t' := by
  simp only [next?, Option.bind_eq_bind, Option.bind_eq_some_iff, Option.guard_eq_some',
    Option.pure_def, Option.some.injEq, exists_const]

theorem isHeld_iff {lock : Nat} :
    t.isHeld lock = true ↔ ∃ x ∈ t.tickets, x.lock = lock ∧ x.stage = .holding := by
  simp [isHeld]

/-- A move that can be made does what it does to the tickets. -/
theorem moves_of_next? (hd : (t.tickets.map Ticket.task).Nodup) {move : Move}
    (h : t.next? move = some t') : t.Moves move t' := by
  cases move with
  | ask task device =>
    obtain ⟨hnone, h⟩ := Option.ite_none_right_eq_some.mp h
    have hnew := ticket?_eq_none_iff.mp (Option.isNone_iff_eq_none.mp hnone)
    cases h
    rw [ask]
    cases hlock : Dict.get? t.locks device with
    | some lock => exact .find hnew hlock
    | none => exact .make hnew hlock
  | enter task =>
    obtain ⟨k, hticket, ⟨hfirst, hfree⟩, rfl⟩ := next?_enter_iff.mp h
    obtain ⟨rfl, -⟩ := (ticket?_eq_some_iff hd).mp hticket
    obtain ⟨hk, as, bs, ht, has⟩ := List.find?_eq_some_iff_append.mp hfirst
    rw [advance_eq hd ht]
    refine .enter ht (by simpa using hk) ?_ ?_
    · intro x hx hlock hwaiting
      have := has x hx
      simp [hlock, hwaiting] at this
    · intro x hx hlock hholding
      exact hfree (isHeld_iff.mpr ⟨x, hx, hlock, hholding⟩)
  | unlock task =>
    obtain ⟨k, hticket, hk, rfl⟩ := next?_unlock_iff.mp h
    obtain ⟨rfl, hmem⟩ := (ticket?_eq_some_iff hd).mp hticket
    obtain ⟨as, bs, ht⟩ := List.append_of_mem hmem
    rw [advance_eq hd ht]
    exact .unlock ht hk
  | leave task =>
    obtain ⟨k, hticket, hk, rfl⟩ := next?_leave_iff.mp h
    obtain ⟨rfl, hmem⟩ := (ticket?_eq_some_iff hd).mp hticket
    obtain ⟨as, bs, ht⟩ := List.append_of_mem hmem
    rw [drop_eq hd ht]
    rcases evict_cases { t with tickets := as ++ bs } k.device with
      ⟨he, hkeep⟩ | ⟨he, lock, hlock, hlast⟩
    · rw [he]
      exact .leave ht hk hkeep
    · rw [he]
      exact .close ht hk hlock hlast

/-- A turn ends only with its own move. -/
theorem Moves.mem_of_holding {move : Move} (hm : t.Moves move t') (hk : k ∈ t.tickets)
    (hs : k.stage = .holding) (hne : move ≠ .unlock k.task) : k ∈ t'.tickets := by
  have stays {k' : Ticket} {as bs : List Ticket} (ht : t.tickets = as ++ k' :: bs) (h' : k ≠ k') :
      k ∈ as ∨ k ∈ bs := by
    rw [ht] at hk
    simpa [h'] using hk
  have changes {stage : Stage} {k' : Ticket} (hs' : k'.stage = stage) (h' : stage ≠ .holding) :
      k ≠ k' := by
    rintro rfl
    exact h' (hs'.symm.trans hs)
  cases hm with
  | find hnew hlock | make hnew hlock => exact List.mem_append_left _ hk
  | enter ht hk' hfirst hfree =>
    exact (stays ht (changes hk' nofun)).elim (List.mem_append_left _)
      fun h => List.mem_append_right _ (List.mem_cons_of_mem _ h)
  | unlock ht hk' =>
    refine (stays ht ?_).elim (List.mem_append_left _)
      fun h => List.mem_append_right _ (List.mem_cons_of_mem _ h)
    rintro rfl
    exact hne rfl
  | leave ht hk' hkeep | close ht hk' hlock hlast =>
    exact (stays ht (changes hk' nofun)).elim (List.mem_append_left _) (List.mem_append_right _)

/-- A task asks for a device only when it has no ticket, and then stays with this device. -/
theorem Moves.ask_or_mem {move : Move} (hm : t.Moves move t') {k' : Ticket}
    (hk' : k' ∈ t'.tickets) : move = .ask k'.task k'.device ∨
      ∃ k ∈ t.tickets, k.task = k'.task ∧ k.device = k'.device := by
  have restaged {k : Ticket} {as bs : List Ticket} {stage : Stage}
      (ht : t.tickets = as ++ k :: bs) (hk' : k' ∈ as ++ { k with stage } :: bs) :
      ∃ k ∈ t.tickets, k.task = k'.task ∧ k.device = k'.device := by
    rw [ht]
    rcases List.mem_append.mp hk' with h | h
    · exact ⟨k', List.mem_append_left _ h, rfl, rfl⟩
    · rcases List.mem_cons.mp h with rfl | h
      · exact ⟨k, List.mem_append_right _ List.mem_cons_self, rfl, rfl⟩
      · exact ⟨k', List.mem_append_right _ (List.mem_cons_of_mem _ h), rfl, rfl⟩
  cases hm with
  | find hnew hlock | make hnew hlock =>
    rcases List.mem_append.mp hk' with h | h
    · exact .inr ⟨k', h, rfl, rfl⟩
    · rw [List.mem_singleton.mp h]
      exact .inl rfl
  | enter ht | unlock ht => exact .inr (restaged ht hk')
  | leave ht | close ht =>
    refine .inr ⟨k', ?_, rfl, rfl⟩
    rw [ht]
    exact (List.mem_append.mp hk').elim (List.mem_append_left _)
      fun h => List.mem_append_right _ (List.mem_cons_of_mem _ h)

/-! ### The invariant -/

/-- What holds of a turnstile at any time. -/
structure IsSound (t : Turnstile) : Prop where
  /-- A task has one ticket. -/
  tasks : (t.tickets.map Ticket.task).Nodup
  /-- In front of a task that has its turn, nobody has or awaits one on the same device. -/
  order : t.tickets.Pairwise fun k k' =>
    k.device = k'.device → k.stage ≠ .leaving → k'.stage ≠ .holding
  /-- A lock that somebody refers to is still that of the device. -/
  lock_eq : ∀ k ∈ t.tickets, k.stage ≠ .leaving → Dict.get? t.locks k.device = some k.lock
  /-- Devices do not share a lock. -/
  device_eq : ∀ {device device' lock}, Dict.get? t.locks device = some lock →
    Dict.get? t.locks device' = some lock → device = device'
  /-- A new lock differs from those there are. -/
  lock_lt : ∀ {device lock}, Dict.get? t.locks device = some lock → lock < t.made
  /-- Somebody is after each device that has a lock. -/
  isAfter : ∀ {device lock}, Dict.get? t.locks device = some lock →
    ∃ k ∈ t.tickets, k.device = device
  isSorted : Dict.IsSorted t.locks

theorem isSound_empty : empty.IsSound where
  tasks := List.Pairwise.nil
  order := List.Pairwise.nil
  lock_eq := nofun
  device_eq := nofun
  lock_lt := nofun
  isAfter := nofun
  isSorted := Dict.isSorted_nil

namespace IsSound

theorem device_eq_iff (h : t.IsSound) {k k' : Ticket} (hk : k ∈ t.tickets) (hk' : k' ∈ t.tickets)
    (hs : k.stage ≠ .leaving) (hs' : k'.stage ≠ .leaving) :
    k.device = k'.device ↔ k.lock = k'.lock := by
  have hlock := h.lock_eq k hk hs
  have hlock' := h.lock_eq k' hk' hs'
  constructor
  · intro hd
    rw [hd] at hlock
    exact Option.some.inj (hlock.symm.trans hlock')
  · intro hl
    rw [← hl] at hlock'
    exact h.device_eq hlock hlock'

/-- A ticket at the end of the line of its device. -/
theorem tickets_append (h : t.IsSound) {k : Ticket} (hnew : ∀ x ∈ t.tickets, x.task ≠ k.task)
    (hk : k.stage = .waiting) :
    ((t.tickets ++ [k]).map Ticket.task).Nodup ∧ (t.tickets ++ [k]).Pairwise fun k k' =>
      k.device = k'.device → k.stage ≠ .leaving → k'.stage ≠ .holding := by
  constructor
  · rw [List.map_append, List.map_singleton]
    refine List.nodup_append.mpr ⟨h.tasks, List.nodup_singleton _, ?_⟩
    intro task htask _ hk
    obtain ⟨x, hx, rfl⟩ := List.mem_map.mp htask
    rw [List.mem_singleton.mp hk]
    exact hnew x hx
  · refine List.pairwise_append.mpr ⟨h.order, List.pairwise_singleton _ _, ?_⟩
    intro x hx y hy _ _
    rw [List.mem_singleton.mp hy, hk]
    exact nofun

theorem find (h : t.IsSound) {task device : String} {lock : Nat}
    (hnew : ∀ x ∈ t.tickets, x.task ≠ task) (hlock : Dict.get? t.locks device = some lock) :
    IsSound { t with tickets := t.tickets ++ [⟨task, device, lock, .waiting⟩] } where
  tasks := (h.tickets_append hnew rfl).1
  order := (h.tickets_append hnew rfl).2
  lock_eq k hk hs := by
    rcases List.mem_append.mp hk with hk | hk
    · exact h.lock_eq k hk hs
    · rw [List.mem_singleton.mp hk]
      exact hlock
  device_eq := h.device_eq
  lock_lt := h.lock_lt
  isAfter hl := by
    obtain ⟨x, hx, hd⟩ := h.isAfter hl
    exact ⟨x, List.mem_append_left _ hx, hd⟩
  isSorted := h.isSorted

theorem make (h : t.IsSound) {task device : String} (hnew : ∀ x ∈ t.tickets, x.task ≠ task)
    (hlock : Dict.get? t.locks device = none) :
    IsSound {
      locks := Dict.insert t.locks device t.made
      tickets := t.tickets ++ [⟨task, device, t.made, .waiting⟩]
      made := t.made + 1 } where
  tasks := (h.tickets_append hnew rfl).1
  order := (h.tickets_append hnew rfl).2
  lock_eq k hk hs := by
    rcases List.mem_append.mp hk with hk | hk
    · have hold := h.lock_eq k hk hs
      have hne : device ≠ k.device := by
        rintro rfl
        rw [hlock] at hold
        cases hold
      rw [Dict.get?_insert_of_ne _ _ hne, hold]
    · rw [List.mem_singleton.mp hk]
      exact Dict.get?_insert_self _ _ _
  device_eq {d d' lock} hl hl' := by
    -- the new lock is larger than all others
    rw [Dict.get?_insert] at hl hl'
    split at hl <;> split at hl'
    · next hd hd' => exact hd.symm.trans hd'
    · cases hl
      exact absurd (h.lock_lt hl') (Nat.lt_irrefl _)
    · cases hl'
      exact absurd (h.lock_lt hl) (Nat.lt_irrefl _)
    · exact h.device_eq hl hl'
  lock_lt {d lock} hl := by
    rw [Dict.get?_insert] at hl
    split at hl
    · cases hl
      exact Nat.lt_succ_self _
    · exact Nat.lt_succ_of_lt (h.lock_lt hl)
  isAfter {d lock} hl := by
    rw [Dict.get?_insert] at hl
    split at hl
    · next hd => exact ⟨_, List.mem_append_right _ List.mem_cons_self, hd⟩
    · obtain ⟨x, hx, hd⟩ := h.isAfter hl
      exact ⟨x, List.mem_append_left _ hx, hd⟩
  isSorted := Dict.isSorted_insert h.isSorted _ _

/-- A task comes to another stage. It does not come back from going away, and it has its turn only
if all in front of it are going away. -/
theorem restage (h : t.IsSound) (ht : t.tickets = as ++ k :: bs) {stage : Stage}
    (hs : stage ≠ .leaving → k.stage ≠ .leaving)
    (hh : stage = .holding → ∀ x ∈ as, x.device = k.device → x.stage = .leaving) :
    IsSound { t with tickets := as ++ { k with stage } :: bs } where
  tasks := by
    have htasks := h.tasks
    rw [ht] at htasks
    simpa using htasks
  order := by
    have horder := h.order
    rw [ht, List.pairwise_append, List.pairwise_cons] at horder
    obtain ⟨has, ⟨hkbs, hbs⟩, hcross⟩ := horder
    refine List.pairwise_append.mpr ⟨has, List.pairwise_cons.mpr ⟨?_, hbs⟩, ?_⟩
    · intro x hx hd hstage
      exact hkbs x hx hd (hs hstage)
    · intro x hx y hy hd hstage
      rcases List.mem_cons.mp hy with rfl | hy
      · intro hholding
        exact hstage (hh hholding x hx hd)
      · exact hcross x hx y (List.mem_cons_of_mem _ hy) hd hstage
  lock_eq x hx hstage := by
    rcases List.mem_append.mp hx with hx | hx
    · exact h.lock_eq x (ht ▸ List.mem_append_left _ hx) hstage
    · rcases List.mem_cons.mp hx with rfl | hx
      · exact h.lock_eq k (ht ▸ List.mem_append_right _ List.mem_cons_self) (hs hstage)
      · exact h.lock_eq x (ht ▸ List.mem_append_right _ (List.mem_cons_of_mem _ hx)) hstage
  device_eq := h.device_eq
  lock_lt := h.lock_lt
  isAfter hl := by
    obtain ⟨x, hx, hd⟩ := h.isAfter hl
    rw [ht] at hx
    rcases List.mem_append.mp hx with hx | hx
    · exact ⟨x, List.mem_append_left _ hx, hd⟩
    · rcases List.mem_cons.mp hx with rfl | hx
      · exact ⟨_, List.mem_append_right _ List.mem_cons_self, hd⟩
      · exact ⟨x, List.mem_append_right _ (List.mem_cons_of_mem _ hx), hd⟩
  isSorted := h.isSorted

theorem leave (h : t.IsSound) (ht : t.tickets = as ++ k :: bs)
    (hkeep : ∀ lock, Dict.get? t.locks k.device = some lock →
      ∃ x ∈ as ++ bs, x.lock = lock ∧ x.stage ≠ .leaving) :
    IsSound { t with tickets := as ++ bs } := by
  have hsub : (as ++ bs).Sublist t.tickets :=
    ht ▸ List.Sublist.append_left (List.sublist_cons_self k bs) as
  refine {
    tasks := h.tasks.sublist (hsub.map Ticket.task)
    order := h.order.sublist hsub
    lock_eq := fun x hx => h.lock_eq x (hsub.subset hx)
    device_eq := h.device_eq
    lock_lt := h.lock_lt
    isAfter := ?_
    isSorted := h.isSorted }
  intro device lock hl
  obtain ⟨x, hx, hd⟩ := h.isAfter hl
  by_cases hk : device = k.device
  · -- the lock stays because another ticket refers to it
    subst hk
    obtain ⟨y, hy, rfl, hs⟩ := hkeep lock hl
    exact ⟨y, hy, h.device_eq (h.lock_eq y (hsub.subset hy) hs) hl⟩
  · rw [ht] at hx
    rcases List.mem_append.mp hx with hx | hx
    · exact ⟨x, List.mem_append_left _ hx, hd⟩
    · rcases List.mem_cons.mp hx with rfl | hx
      · exact absurd hd.symm hk
      · exact ⟨x, List.mem_append_right _ hx, hd⟩

theorem close (h : t.IsSound) (ht : t.tickets = as ++ k :: bs) {lock : Nat}
    (hlock : Dict.get? t.locks k.device = some lock)
    (hlast : ∀ x ∈ as ++ bs, x.lock = lock → x.stage = .leaving) :
    IsSound { t with tickets := as ++ bs, locks := Dict.erase t.locks k.device } := by
  have hsub : (as ++ bs).Sublist t.tickets :=
    ht ▸ List.Sublist.append_left (List.sublist_cons_self k bs) as
  have old {device : String} {lock : Nat}
      (hl : Dict.get? (Dict.erase t.locks k.device) device = some lock) :
      k.device ≠ device ∧ Dict.get? t.locks device = some lock := by
    rw [Dict.get?_erase] at hl
    split at hl
    · cases hl
    · next hne => exact ⟨hne, hl⟩
  refine {
    tasks := h.tasks.sublist (hsub.map Ticket.task)
    order := h.order.sublist hsub
    lock_eq := ?_
    device_eq := fun hl hl' => h.device_eq (old hl).2 (old hl').2
    lock_lt := fun hl => h.lock_lt (old hl).2
    isAfter := ?_
    isSorted := Dict.isSorted_erase h.isSorted _ }
  · intro x hx hs
    have hold := h.lock_eq x (hsub.subset hx) hs
    have hne : k.device ≠ x.device := by
      intro hd
      rw [hd, hold] at hlock
      exact hs (hlast x hx (Option.some.inj hlock))
    rw [Dict.get?_erase, if_neg hne, hold]
  · intro device lock' hl
    obtain ⟨hne, hl⟩ := old hl
    obtain ⟨x, hx, hd⟩ := h.isAfter hl
    rw [ht] at hx
    rcases List.mem_append.mp hx with hx | hx
    · exact ⟨x, List.mem_append_left _ hx, hd⟩
    · rcases List.mem_cons.mp hx with rfl | hx
      · exact absurd hd hne
      · exact ⟨x, List.mem_append_right _ hx, hd⟩

/-- Who has waited longest for a free lock has only tickets in front that are going away. -/
theorem leaving_of_first (h : t.IsSound) (ht : t.tickets = as ++ k :: bs)
    (hk : k.stage = .waiting) (hfirst : ∀ x ∈ as, x.lock = k.lock → x.stage ≠ .waiting)
    (hfree : ∀ x ∈ t.tickets, x.lock = k.lock → x.stage ≠ .holding) :
    ∀ x ∈ as, x.device = k.device → x.stage = .leaving := by
  intro x hx hd
  by_contra hs
  have hmem : x ∈ t.tickets := ht ▸ List.mem_append_left _ hx
  have hkmem : k ∈ t.tickets := ht ▸ List.mem_append_right _ List.mem_cons_self
  have hl : x.lock = k.lock :=
    (h.device_eq_iff hmem hkmem hs (by rw [hk]; exact nofun)).mp hd
  cases hstage : x.stage with
  | waiting => exact hfirst x hx hl hstage
  | holding => exact hfree x hmem hl hstage
  | leaving => exact hs hstage

theorem moves (h : t.IsSound) {move : Move} (hm : t.Moves move t') : t'.IsSound := by
  cases hm with
  | find hnew hlock => exact h.find hnew hlock
  | make hnew hlock => exact h.make hnew hlock
  | enter ht hk hfirst hfree =>
    refine h.restage ht (fun _ => by rw [hk]; exact nofun) fun _ => ?_
    exact h.leaving_of_first ht hk hfirst hfree
  | unlock ht hk => exact h.restage ht (fun hs => absurd rfl hs) nofun
  | leave ht hk hkeep => exact h.leave ht hkeep
  | close ht hk hlock hlast => exact h.close ht hlock hlast

theorem next (h : t.IsSound) {move : Move} (hm : t.next? move = some t') : t'.IsSound :=
  h.moves (moves_of_next? h.tasks hm)

end IsSound

theorem isSound_of_moves {moves : List Move} (ht : t.IsSound)
    (h : moves.foldlM next? t = some t') : t'.IsSound := by
  induction moves generalizing t with
  | nil =>
    cases h
    exact ht
  | cons move rest ih =>
    obtain ⟨between, hm, hrest⟩ := Option.bind_eq_some_iff.mp h
    exact ih (ht.next hm) hrest

/-! ### Lines -/

/-- A move about one device leaves the lines of all others. -/
theorem line_of_moves (hd : (t.tickets.map Ticket.task).Nodup) {move : Move}
    (hm : t.Moves move t') {device : String} (hne : move.device? t ≠ some device) :
    t'.line device = t.line device ∧ Dict.get? t'.locks device = Dict.get? t.locks device := by
  have other {k : Ticket} {as bs : List Ticket} (ht : t.tickets = as ++ k :: bs)
      (hne : (t.ticket? k.task).map Ticket.device ≠ some device) : k.device ≠ device := by
    have hk : k ∈ t.tickets := ht ▸ List.mem_append_right _ List.mem_cons_self
    rw [(ticket?_eq_some_iff hd).mpr ⟨rfl, hk⟩] at hne
    exact fun he => hne (congrArg some he)
  cases hm with
  | find hnew hlock =>
    refine ⟨?_, rfl⟩
    have hd : _ ≠ device := fun he => hne (congrArg some he)
    simp [line, hd]
  | make hnew hlock =>
    have hd : _ ≠ device := fun he => hne (congrArg some he)
    refine ⟨?_, Dict.get?_insert_of_ne _ _ hd⟩
    simp [line, hd]
  | enter ht hk hfirst hfree =>
    refine ⟨?_, rfl⟩
    simp [line, ht, other ht hne]
  | unlock ht hk =>
    refine ⟨?_, rfl⟩
    simp [line, ht, other ht hne]
  | leave ht hk hkeep =>
    refine ⟨?_, rfl⟩
    simp [line, ht, other ht hne]
  | close ht hk hlock hlast =>
    have hd := other ht hne
    refine ⟨?_, (Dict.get?_erase _ _ _).trans (if_neg hd)⟩
    simp [line, ht, hd]

/-- The lock that somebody refers to stays that of the device. -/
theorem IsSound.get?_of_moves (h : t.IsSound) {move : Move} (hm : t.Moves move t')
    (hk : k ∈ t.tickets) (hs : k.stage ≠ .leaving) : Dict.get? t'.locks k.device = some k.lock := by
  have hold := h.lock_eq k hk hs
  cases hm with
  | find hnew hlock => exact hold
  | enter ht hk' hfirst hfree => exact hold
  | unlock ht hk' => exact hold
  | leave ht hk' hkeep => exact hold
  | @make task device hnew hlock =>
    have hne : device ≠ k.device := by
      rintro rfl
      rw [hlock] at hold
      cases hold
    rw [Dict.get?_insert_of_ne _ _ hne, hold]
  | @close k' as bs lock ht hk' hlock hlast =>
    have hne : k'.device ≠ k.device := by
      intro he
      rw [he, hold] at hlock
      rw [ht] at hk
      rcases List.mem_append.mp hk with hk | hk
      · exact hs (hlast k (List.mem_append_left _ hk) (Option.some.inj hlock))
      · rcases List.mem_cons.mp hk with rfl | hk
        · exact hs hk'
        · exact hs (hlast k (List.mem_append_right _ hk) (Option.some.inj hlock))
    rw [Dict.get?_erase, if_neg hne, hold]

theorem head?_line_eq (ht : t.tickets = as ++ k :: bs) (hs : k.stage ≠ .leaving)
    (has : ∀ x ∈ as, x.device = k.device → x.stage = .leaving) :
    (t.line k.device).head? = some k := by
  rw [line, List.head?_filter, List.find?_eq_some_iff_append]
  refine ⟨by simpa using hs, as, bs, ht, ?_⟩
  intro x hx
  by_cases hd : x.device = k.device
  · simp [has x hx hd]
  · simp [hd]

theorem of_head?_line {device : String} (h : (t.line device).head? = some k) :
    ∃ as bs, t.tickets = as ++ k :: bs ∧ ∀ x ∈ as, x.device = device → x.stage = .leaving := by
  rw [line, List.head?_filter, List.find?_eq_some_iff_append] at h
  obtain ⟨-, as, bs, ht, has⟩ := h
  refine ⟨as, bs, ht, ?_⟩
  intro x hx hd
  simpa [hd] using has x hx

/-- A task that has its turn is the first in line. -/
theorem IsSound.head?_line_of_holding (h : t.IsSound) (hk : k ∈ t.tickets)
    (hs : k.stage = .holding) : (t.line k.device).head? = some k := by
  obtain ⟨as, bs, ht⟩ := List.append_of_mem hk
  have horder := h.order
  rw [ht, List.pairwise_append] at horder
  refine head?_line_eq ht (by rw [hs]; exact nofun) ?_
  intro x hx hd
  by_contra hx'
  exact horder.2.2 x hx k List.mem_cons_self hd hx' hs

/-- Turns on a device exclude each other. -/
theorem IsSound.eq_of_holding (h : t.IsSound) {k k' : Ticket} (hk : k ∈ t.tickets)
    (hk' : k' ∈ t.tickets) (hs : k.stage = .holding) (hs' : k'.stage = .holding)
    (hd : k.device = k'.device) : k = k' := by
  have hhead := h.head?_line_of_holding hk hs
  rw [hd, h.head?_line_of_holding hk' hs'] at hhead
  exact (Option.some.inj hhead).symm

/-- The first in line need not wait. -/
theorem IsSound.enters_of_head?_line (h : t.IsSound) (hs : k.stage = .waiting)
    (hhead : (t.line k.device).head? = some k) : (t.next? (.enter k.task)).isSome := by
  obtain ⟨as, bs, ht, has⟩ := of_head?_line hhead
  have hk : k ∈ t.tickets := ht ▸ List.mem_append_right _ List.mem_cons_self
  have hks : k.stage ≠ .leaving := by rw [hs]; exact nofun
  have hticket := (ticket?_eq_some_iff h.tasks).mpr ⟨rfl, hk⟩
  have hfirst : t.firstWaiting? k.lock = some k := by
    refine List.find?_eq_some_iff_append.mpr ⟨by simpa using hs, as, bs, ht, ?_⟩
    intro x hx
    by_contra hx'
    obtain ⟨hl, hw⟩ : x.lock = k.lock ∧ x.stage = .waiting := by simpa using hx'
    have hxs : x.stage ≠ .leaving := by rw [hw]; exact nofun
    have hxt : x ∈ t.tickets := ht ▸ List.mem_append_left _ hx
    exact hxs (has x hx ((h.device_eq_iff hxt hk hxs hks).mpr hl))
  have hfree : ¬ t.isHeld k.lock := by
    rw [isHeld_iff]
    rintro ⟨x, hx, hl, hholding⟩
    have hxs : x.stage ≠ .leaving := by rw [hholding]; exact nofun
    have hd := (h.device_eq_iff hx hk hxs hks).mpr hl
    -- the holder is the first in line as well
    have hxhead := h.head?_line_of_holding hx hholding
    rw [hd, hhead] at hxhead
    cases hxhead
    rw [hs] at hholding
    cases hholding
  exact Option.isSome_iff_exists.mpr
    ⟨_, next?_enter_iff.mpr ⟨k, hticket, ⟨hfirst, hfree⟩, rfl⟩⟩

/-- A task waits only for those before it in the line of its device. -/
theorem IsSound.isSome_upcoming_iff (h : t.IsSound) (hk : k ∈ t.tickets) :
    (t.next? k.upcoming).isSome ↔
      k.stage ≠ .leaving → (t.line k.device).head? = some k := by
  have hticket := (ticket?_eq_some_iff h.tasks).mpr ⟨rfl, hk⟩
  cases hs : k.stage with
  | waiting =>
    have hup : k.upcoming = .enter k.task := by rw [Ticket.upcoming, hs]
    rw [hup]
    constructor
    · intro hsome _
      obtain ⟨t', ht'⟩ := Option.isSome_iff_exists.mp hsome
      obtain ⟨k', hk', ⟨hfirst, hfree⟩, -⟩ := next?_enter_iff.mp ht'
      cases hticket.symm.trans hk'
      obtain ⟨-, as, bs, ht, has⟩ := List.find?_eq_some_iff_append.mp hfirst
      refine head?_line_eq ht (by rw [hs]; exact nofun) (h.leaving_of_first ht hs ?_ ?_)
      · intro x hx hl hw
        simpa [hl, hw] using has x hx
      · intro x hx hl hholding
        exact hfree (isHeld_iff.mpr ⟨x, hx, hl, hholding⟩)
    · intro hhead
      exact h.enters_of_head?_line hs (hhead nofun)
  | holding =>
    have hup : k.upcoming = .unlock k.task := by rw [Ticket.upcoming, hs]
    have hnext := next?_unlock_iff.mpr ⟨k, hticket, hs, rfl⟩
    rw [hup, hnext]
    exact iff_of_true rfl fun _ => h.head?_line_of_holding hk hs
  | leaving =>
    have hup : k.upcoming = .leave k.task := by rw [Ticket.upcoming, hs]
    have hnext := next?_leave_iff.mpr ⟨k, hticket, hs, rfl⟩
    rw [hup, hnext]
    exact iff_of_true rfl fun hne => absurd rfl hne

/-- A task gets its turn when nobody has one on the same device. -/
theorem IsSound.of_enter (h : t.IsSound) {task : String} (hm : t.next? (.enter task) = some t') :
    ∃ k ∈ t.tickets, k.task = task ∧ { k with stage := .holding } ∈ t'.tickets ∧
      ∀ x ∈ t.tickets, x.device = k.device → x.stage ≠ .holding := by
  cases moves_of_next? h.tasks hm with
  | @enter k as bs ht hk hfirst hfree =>
    have hkt : k ∈ t.tickets := ht ▸ List.mem_append_right _ List.mem_cons_self
    refine ⟨k, hkt, rfl, List.mem_append_right _ List.mem_cons_self, ?_⟩
    intro x hx hd hs
    have hxs : x.stage ≠ .leaving := by rw [hs]; exact nofun
    have hks : k.stage ≠ .leaving := by rw [hk]; exact nofun
    exact hfree x hx ((h.device_eq_iff hx hkt hxs hks).mp hd) hs

/-! ### Locks in use -/

theorem mem_wanted {device : String} :
    device ∈ t.wanted ↔ ∃ k ∈ t.tickets, k.stage ≠ .leaving ∧ k.device = device := by
  simp [wanted, and_assoc]

theorem IsSound.size_eq (h : t.IsSound) (hs : ∀ k ∈ t.tickets, k.stage ≠ .leaving) :
    t.size = t.wanted.card := by
  have hkeys : (Dict.keys t.locks).toFinset = t.wanted := by
    ext device
    rw [List.mem_toFinset, Dict.mem_keys_iff, mem_wanted]
    constructor
    · rintro ⟨lock, hl⟩
      obtain ⟨k, hk, hd⟩ := h.isAfter hl
      exact ⟨k, hk, hs k hk, hd⟩
    · rintro ⟨k, hk, hks, rfl⟩
      exact ⟨k.lock, h.lock_eq k hk hks⟩
  calc t.size = (Dict.keys t.locks).length := (List.length_map _).symm
    _ = (Dict.keys t.locks).toFinset.card :=
      (List.toFinset_card_of_nodup (Dict.nodup_keys h.isSorted)).symm
    _ = t.wanted.card := by rw [hkeys]

/-- After any moves from a turnstile that nobody uses: turns on a device exclude each other, whoever
has or awaits a turn refers to the lock that the device has and keeps, a task waits only for those
before it on the same device, and as long as nobody is going away there are as many locks as devices
that somebody has or awaits. -/
theorem turns_of_moves {moves : List Move} (h : moves.foldlM next? empty = some t) :
    (∀ k ∈ t.tickets, ∀ k' ∈ t.tickets, k.stage = .holding → k'.stage = .holding →
      k.device = k'.device → k = k') ∧
    (∀ k ∈ t.tickets, k.stage ≠ .leaving → Dict.get? t.locks k.device = some k.lock ∧
      ∀ move t', t.next? move = some t' → Dict.get? t'.locks k.device = some k.lock) ∧
    (∀ task device, (t.next? (.ask task device)).isSome ↔ ∀ k ∈ t.tickets, k.task ≠ task) ∧
    (∀ k ∈ t.tickets, (t.next? k.upcoming).isSome ↔
      k.stage ≠ .leaving → (t.line k.device).head? = some k) ∧
    (∀ move t' device, t.next? move = some t' → move.device? t ≠ some device →
      t'.line device = t.line device ∧
      Dict.get? t'.locks device = Dict.get? t.locks device) ∧
    ((∀ k ∈ t.tickets, k.stage ≠ .leaving) → t.size = t.wanted.card) ∧
    (t.tickets = [] → t.locks = []) := by
  have hsound := isSound_of_moves isSound_empty h
  refine ⟨?_, ?_, ?_, ?_, ?_, hsound.size_eq, ?_⟩
  · intro k hk k' hk' hs hs' hd
    exact hsound.eq_of_holding hk hk' hs hs' hd
  · intro k hk hs
    refine ⟨hsound.lock_eq k hk hs, ?_⟩
    intro move t' hm
    exact hsound.get?_of_moves (moves_of_next? hsound.tasks hm) hk hs
  · intro task device
    rw [← ticket?_eq_none_iff, next?]
    cases t.ticket? task <;> simp
  · intro k hk
    exact hsound.isSome_upcoming_iff hk
  · intro move t' device hm hne
    exact line_of_moves hsound.tasks (moves_of_next? hsound.tasks hm) hne
  · intro hnone
    have hsize := hsound.size_eq (by rw [hnone]; exact nofun)
    have hwanted : t.wanted = ∅ := by rw [wanted, hnone]; rfl
    rw [hwanted] at hsize
    exact List.length_eq_zero_iff.mp hsize

/-- One task goes away from the hall while a second has its turn there and a third waits. -/
theorem turns_of_two_devices :
    let moves := [.ask "ann" "hall", .enter "ann", .ask "bob" "hall", .ask "cid" "roof",
      .enter "cid", .unlock "ann", .enter "bob", .ask "dan" "hall", .leave "ann"]
    ∃ t, moves.foldlM next? empty = some t ∧
      t.tickets = [⟨"bob", "hall", 0, .holding⟩, ⟨"cid", "roof", 1, .holding⟩,
        ⟨"dan", "hall", 0, .waiting⟩] ∧
      (∀ device, (t.next? (.ask "ann" device)).isSome) ∧ (t.next? (.enter "dan")).isNone ∧
      t.size = 2 := by
  intro moves
  have h : moves.foldlM next? empty = some {
      locks := [("hall", 0), ("roof", 1)]
      tickets := [⟨"bob", "hall", 0, .holding⟩, ⟨"cid", "roof", 1, .holding⟩,
        ⟨"dan", "hall", 0, .waiting⟩]
      made := 2 } := by rfl
  obtain ⟨-, -, hask, hupcoming, -, hsize, -⟩ := turns_of_moves h
  refine ⟨_, h, rfl, ?_, ?_, ?_⟩
  · intro device
    exact (hask "ann" device).mpr (by decide)
  · have hdan := hupcoming ⟨"dan", "hall", 0, .waiting⟩ (by decide)
    rw [← Option.not_isSome, Bool.not_eq_true', ← Bool.not_eq_true]
    intro hsome
    exact absurd (hdan.mp hsome) (by decide)
  · exact hsize (by decide)

end TriggerWatch.Turnstile
