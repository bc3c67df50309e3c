import TriggerWatch.Dict

/-!
# Turns

Evaluations of one device take turns. Each device in use has a lock, which is made when a task first
asks for the device. A task that has asked waits until the lock is free and nobody who asked for it
before still waits. A task that gives the lock back lets go of it first; then it removes the lock of
the device if nobody refers to it any more.

## Main definitions

- `Turnstile` — the locks of the devices and the tickets of the tasks
- `Turnstile.Move` — what a task can do in one step
- `Turnstile.next?` — the turnstile after a move, if the move can be made
- `Rota` — a turnstile together with the tasks that want to give back what they have
- `Rota.acquire`, `Rota.release` — let a task ask, or give back, and make all moves that follow

## Design notes

The moves are the steps between which other tasks can act. `Turnstile.next?` says of each move on
its own whether it can be made, so any order of moves of any number of tasks is a list of moves.
-/

namespace TriggerWatch

/-- How far a task has come. -/
inductive Turnstile.Stage where
  /-- The task refers to the lock and waits for it. -/
  | waiting
  /-- The task has the lock. -/
  | holding
  /-- The task has let go of the lock and has not yet looked whether to remove it. -/
  | leaving
deriving DecidableEq, Repr

/-- A task that is after a device. -/
structure Turnstile.Ticket where
  task : String
  device : String
  /-- The lock that the task found for the device. -/
  lock : Nat
  /-- How far the task has come. -/
  stage : Turnstile.Stage
deriving DecidableEq, Repr

/-- The locks of the devices and the tickets of the tasks. -/
structure Turnstile where
  /-- The lock of each device in use. -/
  locks : Dict Nat
  /-- The tickets in the order in which the tasks asked. -/
  tickets : List Turnstile.Ticket
  /-- The number of locks made so far. -/
  made : Nat
deriving Repr

namespace Turnstile

/-- A turnstile that nobody uses. -/
def empty : Turnstile := { locks := [], tickets := [], made := 0 }

/-- The ticket of a task. -/
def ticket? (t : Turnstile) (task : String) : Option Ticket :=
  t.tickets.find? fun k => k.task == task

/-- Whether a ticket refers to a lock: its task has the lock or waits for it. -/
def Ticket.refersTo (k : Ticket) (lock : Nat) : Bool := k.lock == lock && k.stage != .leaving

/-- Whether a task has a lock. -/
def isHeld (t : Turnstile) (lock : Nat) : Bool :=
  t.tickets.any fun k => k.lock == lock && k.stage == .holding

/-- The task that waits longest for a lock. -/
def firstWaiting? (t : Turnstile) (lock : Nat) : Option Ticket :=
  t.tickets.find? fun k => k.lock == lock && k.stage == .waiting

/-- The turnstile with a task at another stage. -/
def advance (t : Turnstile) (task : String) (stage : Stage) : Turnstile :=
  { t with tickets := t.tickets.map fun k => if k.task = task then { k with stage } else k }

/-- The turnstile without the ticket of a task. -/
def drop (t : Turnstile) (task : String) : Turnstile :=
  { t with tickets := t.tickets.filter fun k => k.task ≠ task }

/-- The turnstile without the lock of a device that no ticket refers to. -/
def evict (t : Turnstile) (device : String) : Turnstile :=
  match Dict.get? t.locks device with
  | none => t
  | some lock =>
    if t.tickets.any fun k => k.refersTo lock then t
    else { t with locks := Dict.erase t.locks device }

/-- What a task can do in one step. -/
inductive Move where
  /-- Find the lock of a device, or make it, and wait for it. -/
  | ask (task device : String)
  /-- Get the lock. -/
  | enter (task : String)
  /-- Let go of the lock. -/
  | unlock (task : String)
  /-- Go away, and remove the lock of the device if nobody refers to it. -/
  | leave (task : String)
deriving DecidableEq, Repr

/-- The turnstile after a task asks for a device. -/
def ask (t : Turnstile) (task device : String) : Turnstile :=
  match Dict.get? t.locks device with
  | some lock => { t with tickets := t.tickets ++ [⟨task, device, lock, .waiting⟩] }
  | none => {
      locks := Dict.insert t.locks device t.made
      tickets := t.tickets ++ [⟨task, device, t.made, .waiting⟩]
      made := t.made + 1 }

/-- The turnstile after a move, if the move can be made. -/
def next? (t : Turnstile) : Move → Option Turnstile
  | .ask task device => if (t.ticket? task).isNone then some (t.ask task device) else none
  | .enter task => do
    let k ← t.ticket? task
    guard (t.firstWaiting? k.lock = some k ∧ ¬ t.isHeld k.lock)
    return t.advance task .holding
  | .unlock task => do
    let k ← t.ticket? task
    guard (k.stage = .holding)
    return t.advance task .leaving
  | .leave task => do
    let k ← t.ticket? task
    guard (k.stage = .leaving)
    return (t.drop task).evict k.device

/-- The tasks that have a lock. -/
def holders (t : Turnstile) : List String :=
  (t.tickets.filter fun k => k.stage == .holding).map Ticket.task

/-- The number of devices in use. -/
def size (t : Turnstile) : Nat := t.locks.length

end Turnstile

/-- A turnstile together with the tasks that want to give back what they have. -/
structure Rota where
  turnstile : Turnstile
  /-- The tasks that give their lock back as soon as they have it. -/
  done : List String

namespace Rota

/-- A rota without tasks. -/
def empty : Rota := { turnstile := Turnstile.empty, done := [] }

/-- The move that the task of a ticket wants to make. -/
def wish? (r : Rota) (k : Turnstile.Ticket) : Option Turnstile.Move :=
  match k.stage with
  | .waiting => some (.enter k.task)
  | .holding => if r.done.contains k.task then some (.unlock k.task) else none
  | .leaving => some (.leave k.task)

/-- The turnstile after the first wish that can be met. -/
def step? (r : Rota) : Option Turnstile :=
  r.turnstile.tickets.findSome? fun k => (r.wish? k).bind r.turnstile.next?

/-- Meet wishes one after the other, at most as many as `fuel` says. -/
def settle (fuel : Nat) (r : Rota) : Rota :=
  match fuel with
  | 0 => r
  | fuel + 1 =>
    match r.step? with
    | none => r
    | some turnstile => settle fuel { r with turnstile }

/-- Meet wishes until none can be met. A ticket makes at most three moves. -/
def settled (r : Rota) : Rota := r.settle (3 * r.turnstile.tickets.length)

/-- Let a task ask for a device. -/
def acquire (r : Rota) (task device : String) : Rota :=
  match r.turnstile.next? (.ask task device) with
  | none => r
  | some turnstile => settled { turnstile, done := r.done.erase task }

/-- Let a task give back what it has or waits for. -/
def release (r : Rota) (task : String) : Rota :=
  match r.turnstile.ticket? task with
  | none => r
  | some _ => settled { r with done := task :: r.done }

end Rota

end TriggerWatch
