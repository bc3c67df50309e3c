import TriggerWatch.Action

/-!
# Links to stores

A link carries calls to a store. It keeps a record of every call made, and it may lose one: a call
can be refused, can stay without an answer, or can be answered late. A call that is refused or stays
without an answer does nothing to the store.

## Main definitions

- `Fault` — what can happen to a call
- `Link` — the faults of a link and the calls made over it
- `Link.reach` — make a call
-/

namespace TriggerWatch

/-- What can happen to a call. -/
inductive Fault where
  | refuse (message : String)
  /-- The call is never answered. -/
  | stall
  /-- The call is answered after some milliseconds. -/
  | delay (milliseconds : Nat)
deriving DecidableEq, Repr

/-- A link that carries calls of type `κ`. -/
structure Link (κ : Type) where
  /-- The fault of a call, by the number of calls before it. -/
  faults : Nat → Option Fault
  /-- The calls made, the first one first. -/
  calls : List κ

namespace Link

variable {κ σ ε : Type}

/-- A link without faults on which no call was made. -/
def sound : Link κ := { faults := fun _ => none, calls := [] }

/-- The fault of the next call. -/
def next (l : Link κ) : Option Fault := l.faults l.calls.length

/-- The link after a call. -/
def record (l : Link κ) (call : κ) : Link κ := { l with calls := l.calls ++ [call] }

/-- Meet a fault, or none. -/
def meet (refused : String → ε) : Option Fault → Action σ ε Unit
  | none => pure ()
  | some (.refuse message) => Action.fail (refused message)
  | some .stall => throw .unanswered
  | some (.delay milliseconds) => Action.wait milliseconds

/-- Make a call over the link of a store. What the store does in answer follows this step. -/
def reach (link : σ → Link κ) (setLink : Link κ → σ → σ) (refused : String → ε) (call : κ) :
    Action σ ε Unit := do
  let fault := (link (← Action.stores)).next
  Action.modifyStores fun s => setLink ((link s).record call) s
  meet refused fault

end Link

end TriggerWatch
