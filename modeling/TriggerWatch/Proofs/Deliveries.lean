import Mathlib.Data.List.Forall2
import TriggerWatch.Intake
import TriggerWatch.Proofs.Cells

/-!
# Deliveries

Messages wait in a list of a Redis server. Producers push them at its left end and the service takes
them at its right end. Whatever happens to its commands on their way, each call for the next message
removes the one that has waited longest or none at all, and tells what became of it, so that the
messages taken followed by those that still wait are the messages in the order of their arrival.

## Main definitions

- `Redis.waiting?` — the messages that wait in a list
- `Redis.Fate` — what becomes of a command on its way
- `Redis.Taking` — a call for the next message, with the sessions before and after it
- `Redis.Delivers` — what such a call does
- `Redis.takings` — the calls in a run of pushes and calls

## Main statements

- `Redis.take_delivers` — what one call does
- `Redis.Delivers.conserves` — the messages of a list before and after a call
- `Redis.takings_in_order` — messages are taken in order and at most once
-/

namespace TriggerWatch.Redis

variable {queue : String} {items : List ByteArray}

/-! ### Commands on their way -/

/-- What becomes of a command on its way to the server. -/
inductive Fate where
  | carried
  | refused (message : String)
  /-- The command is never answered, or not before the deadline. -/
  | unanswered

/-- What becomes of the next command. -/
def fate (s : Session Redis) : Fate :=
  match s.stores.link.next, s.deadline with
  | none, _ => .carried
  | some (.refuse message), _ => .refused message
  | some .stall, _ => .unanswered
  | some (.delay _), none => .carried
  | some (.delay milliseconds), some due =>
    if s.elapsed + milliseconds ≤ due then .carried else .unanswered

/-- What is told of a command before the server acts on it. -/
def Fate.reply : Fate → Except (Stop StoreFailure) Unit
  | .carried => .ok ()
  | .refused message => .error (.failed (.redis message))
  | .unanswered => .error .unanswered

/-- A command is recorded, and nothing else is done before the server acts on it. -/
theorem send_reply (command : Command) (s : Session Redis) :
    ∃ t, (send command).onSession s = ((fate s).reply, t) ∧
      t.stores = { s.stores with link := s.stores.link.record command } := by
  have hmeet : (send command).onSession s =
      (Link.meet StoreFailure.redis s.stores.link.next).onSession
        { s with stores := { s.stores with link := s.stores.link.record command } } := rfl
  rw [hmeet, fate]
  cases s.stores.link.next with
  | none => exact ⟨_, rfl, rfl⟩
  | some fault =>
    cases fault with
    | refuse | stall => exact ⟨_, rfl, rfl⟩
    | delay milliseconds =>
      simp only [Link.meet, Action.wait, Action.ofStep, Action.onSession]
      cases s.deadline with
      | none => exact ⟨_, rfl, rfl⟩
      | some due =>
        by_cases hdue : s.elapsed + milliseconds ≤ due
        · simp [hdue, Fate.reply]
        · simp [hdue, Fate.reply]

/-! ### Calls for the next message -/

/-- The messages that wait in a list, its left end first. A missing list is empty. -/
def waiting? (queue : String) (r : Redis) : Option (List ByteArray) :=
  match Dict.get? r.keys queue with
  | none => some []
  | some (.list items) => some items
  | some (.string _) => none

/-- The submission in a message, if it is the text of one. -/
def submissionOf? (message : ByteArray) : Option Submission :=
  (decode message).bind Submission.ofText?

/-- The answer to a call that has taken a message. -/
def answerTo (message : ByteArray) : Except (Stop StoreFailure) (Option Submission) :=
  match decode message with
  | none => .error (.failed (.redis "the reply is no text"))
  | some text => .ok (Submission.ofText? text)

/-- A call for the next message, with the sessions before and after it. -/
structure Taking where
  seconds : Nat
  before : Session Redis
  answer : Except (Stop StoreFailure) (Option Submission)
  after : Session Redis

/-- A call for the next message in a list. -/
def taking (queue : String) (seconds : Nat) (s : Session Redis) : Taking where
  seconds
  before := s
  answer := (((intake queue).take seconds).onSession s).1
  after := (((intake queue).take seconds).onSession s).2

/-- The submission that a call comes back with. -/
def Taking.submission? (t : Taking) : Option Submission :=
  match t.answer with
  | .ok answer => answer
  | .error _ => none

/-- How a call ends, and the message that it removes. -/
inductive Ends (queue : String) (t : Taking) : Option ByteArray → Prop
  | refused {message : String} (hfate : fate t.before = .refused message)
    (hanswer : t.answer = .error (.failed (.redis message)))
    (hkeys : t.after.stores.keys = t.before.stores.keys) : Ends queue t none
  | unanswered (hfate : fate t.before = .unanswered) (hanswer : t.answer = .error .unanswered)
    (hkeys : t.after.stores.keys = t.before.stores.keys) : Ends queue t none
  | empty (hfate : fate t.before = .carried) (hwaiting : waiting? queue t.before.stores = some [])
    (hanswer : t.answer = .ok none) (hkeys : t.after.stores.keys = t.before.stores.keys) :
    Ends queue t none
  | removed {message : ByteArray} {rest : List ByteArray} (hfate : fate t.before = .carried)
    (hbefore : waiting? queue t.before.stores = some (rest ++ [message]))
    (hafter : waiting? queue t.after.stores = some rest) (hanswer : t.answer = answerTo message) :
    Ends queue t (some message)

/-- What a call for the next message does. One command is sent, whatever becomes of it, and other
keys stay as they were. -/
structure Delivers (queue : String) (t : Taking) (removed : Option ByteArray) : Prop where
  sent : t.after.stores.link = t.before.stores.link.record (.popRight queue t.seconds)
  others : ∀ key ≠ queue,
    Dict.get? t.after.stores.keys key = Dict.get? t.before.stores.keys key
  ending : Ends queue t removed

/-- The session after a list has changed. -/
def leaving (queue : String) (rest : List ByteArray) (t : Session Redis) : Session Redis :=
  { t with stores := { t.stores with keys := t.stores.keys.insert queue (.list rest) } }

theorem waiting?_leaving (rest : List ByteArray) (t : Session Redis) :
    waiting? queue (leaving queue rest t).stores = some rest := by
  rw [waiting?, leaving, Dict.get?_insert_self]

theorem onSession_take_nil {seconds : Nat} {s t : Session Redis}
    (hsend : (send (.popRight queue seconds)).onSession s = (.ok (), t))
    (h : waiting? queue t.stores = some []) :
    ((intake queue).take seconds).onSession s = (.ok none, t) := by
  have hpop : (popRight queue seconds).onSession s = (.ok none, t) := by
    refine (Action.onSession_bind_ok hsend).trans
      ((Action.onSession_bind_ok (Action.onSession_stores t)).trans ?_)
    rw [waiting?] at h
    split at h
    · next hkey => rw [hkey]; rfl
    · next hkey => cases h; rw [hkey]; rfl
    · cases h
  exact (Action.onSession_bind_ok hpop).trans rfl

theorem onSession_take_concat {seconds : Nat} {s t : Session Redis} {rest : List ByteArray}
    {message : ByteArray} (hsend : (send (.popRight queue seconds)).onSession s = (.ok (), t))
    (h : waiting? queue t.stores = some (rest ++ [message])) :
    ((intake queue).take seconds).onSession s = (answerTo message, leaving queue rest t) := by
  have hkey : Dict.get? t.stores.keys queue = some (.list (rest ++ [message])) := by
    rw [waiting?] at h
    split at h
    · simp at h
    · next hkey => cases h; exact hkey
    · cases h
  have hpop : (popRight queue seconds).onSession s =
      (some <$> textOf message).onSession (leaving queue rest t) := by
    refine (Action.onSession_bind_ok hsend).trans
      ((Action.onSession_bind_ok (Action.onSession_stores t)).trans ?_)
    rw [hkey]
    simp only [List.getLast?_concat, List.dropLast_concat]
    exact Action.onSession_bind_ok rfl
  rw [textOf] at hpop
  rw [answerTo]
  cases hdecode : decode message with
  | none =>
    rw [hdecode] at hpop
    exact (Action.onSession_bind_error hpop).trans rfl
  | some text =>
    rw [hdecode] at hpop
    exact (Action.onSession_bind_ok hpop).trans rfl

theorem onSession_take_error {seconds : Nat} {s t : Session Redis} {stop : Stop StoreFailure}
    (hsend : (send (.popRight queue seconds)).onSession s = (.error stop, t)) :
    ((intake queue).take seconds).onSession s = (.error stop, t) :=
  Action.onSession_bind_error (Action.onSession_bind_error hsend)

/-- What one call for the next message does. -/
theorem take_delivers (seconds : Nat) {s : Session Redis}
    (h : waiting? queue s.stores = some items) :
    ∃ removed, Delivers queue (taking queue seconds s) removed := by
  obtain ⟨t, hsend, hstores⟩ := send_reply (.popRight queue seconds) s
  have hlink : t.stores.link = s.stores.link.record (.popRight queue seconds) := by rw [hstores]
  have hkeys : t.stores.keys = s.stores.keys := by rw [hstores]
  have hwaiting : waiting? queue t.stores = some items := by rw [waiting?, hkeys]; exact h
  cases hfate : fate s with
  | refused message =>
    rw [hfate] at hsend
    have htake := onSession_take_error hsend
    refine ⟨none, ?_, ?_, .refused hfate (congrArg Prod.fst htake) ?_⟩ <;>
      simp [taking, htake, hlink, hkeys]
  | unanswered =>
    rw [hfate] at hsend
    have htake := onSession_take_error hsend
    refine ⟨none, ?_, ?_, .unanswered hfate (congrArg Prod.fst htake) ?_⟩ <;>
      simp [taking, htake, hlink, hkeys]
  | carried =>
    rw [hfate] at hsend
    rcases List.eq_nil_or_concat items with rfl | ⟨rest, message, hitems⟩
    · have htake := onSession_take_nil hsend hwaiting
      refine ⟨none, ?_, ?_, .empty hfate h (congrArg Prod.fst htake) ?_⟩ <;>
        simp [taking, htake, hlink, hkeys]
    · rw [List.concat_eq_append] at hitems
      subst hitems
      have htake := onSession_take_concat hsend hwaiting
      refine ⟨some message, ?_, fun key hkey => ?_, .removed hfate h ?_ (congrArg Prod.fst htake)⟩
      · simp [taking, htake, leaving, hlink]
      · simp [taking, htake, leaving, hkeys, Dict.get?_insert_of_ne _ _ hkey.symm]
      · rw [taking, htake]
        exact waiting?_leaving rest t

namespace Delivers

variable {t : Taking} {removed : Option ByteArray}

/-- What a call removes has waited longest, and the other messages go on waiting. -/
theorem conserves (h : Delivers queue t removed)
    (hbefore : waiting? queue t.before.stores = some items) :
    ∃ rest, waiting? queue t.after.stores = some rest ∧
      items.reverse = removed.toList ++ rest.reverse := by
  have hkept (hkeys : t.after.stores.keys = t.before.stores.keys) :
      waiting? queue t.after.stores = some items := by rw [waiting?, hkeys]; exact hbefore
  cases h.ending with
  | refused _ _ hkeys | unanswered _ _ hkeys | empty _ _ _ hkeys => exact ⟨items, hkept hkeys, rfl⟩
  | removed _ hwaiting hafter =>
    cases hbefore.symm.trans hwaiting
    exact ⟨_, hafter, List.reverse_concat⟩

/-- The submission that a call comes back with is in the message that it removes. -/
theorem submission?_eq (h : Delivers queue t removed) :
    t.submission? = removed.bind submissionOf? := by
  rw [Taking.submission?]
  cases h.ending with
  | refused _ hanswer | unanswered _ hanswer | empty _ _ hanswer => rw [hanswer]; rfl
  | @removed message _ _ _ _ hanswer =>
    rw [hanswer, answerTo, Option.bind_some, submissionOf?]
    cases decode message <;> rfl

end Delivers

/-! ### Runs -/

/-- What happens at a list. -/
inductive Move where
  /-- A producer pushes a message at the left end. -/
  | push (message : ByteArray)
  /-- The next message is called for. -/
  | take (seconds : Nat)

/-- The messages pushed, the first one first. -/
def pushed : List Move → List ByteArray
  | [] => []
  | .push message :: rest => message :: pushed rest
  | .take _ :: rest => pushed rest

/-- The session after a push. -/
def afterPush (queue : String) (message : ByteArray) (s : Session Redis) : Session Redis :=
  match waiting? queue s.stores with
  | none => s
  | some items => leaving queue (message :: items) s

/-- The calls for the next message in a run. -/
def takings (queue : String) : Session Redis → List Move → List Taking
  | _, [] => []
  | s, .push message :: rest => takings queue (afterPush queue message s) rest
  | s, .take seconds :: rest =>
    taking queue seconds s :: takings queue (taking queue seconds s).after rest

/-- The session after a run. -/
def afterMoves (queue : String) : Session Redis → List Move → Session Redis
  | s, [] => s
  | s, .push message :: rest => afterMoves queue (afterPush queue message s) rest
  | s, .take seconds :: rest => afterMoves queue (taking queue seconds s).after rest

theorem waiting?_afterPush {s : Session Redis} (h : waiting? queue s.stores = some items)
    (message : ByteArray) :
    waiting? queue (afterPush queue message s).stores = some (message :: items) := by
  rw [afterPush, h]
  exact waiting?_leaving _ s

theorem get?_afterPush (message : ByteArray) (s : Session Redis) {key : String} (h : key ≠ queue) :
    Dict.get? (afterPush queue message s).stores.keys key = Dict.get? s.stores.keys key := by
  rw [afterPush]
  cases waiting? queue s.stores with
  | none => rfl
  | some => exact Dict.get?_insert_of_ne _ _ h.symm

theorem filterMap_toList {α β : Type} (f : α → Option β) (x : Option α) :
    x.toList.filterMap f = (x.bind f).toList := by
  cases x with
  | none => rfl
  | some a => exact (filterMap_cons_eq_append f a []).trans (List.append_nil _)

/-- Messages are taken in the order of their arrival and at most once, whatever happens to the
commands. Those that arrive are those taken, followed by those that still wait. The submissions
that the calls come back with are those in the messages taken. -/
theorem takings_in_order {start : Session Redis} (h : waiting? queue start.stores = some items)
    (moves : List Move) : ∃ (removed : List (Option ByteArray)) (rest : List ByteArray),
      List.Forall₂ (Delivers queue) (takings queue start moves) removed ∧
      waiting? queue (afterMoves queue start moves).stores = some rest ∧
      items.reverse ++ pushed moves = removed.filterMap id ++ rest.reverse ∧
      (takings queue start moves).filterMap Taking.submission? =
        (removed.filterMap id).filterMap submissionOf? ∧
      ∀ key ≠ queue, Dict.get? (afterMoves queue start moves).stores.keys key =
        Dict.get? start.stores.keys key := by
  induction moves generalizing start items with
  | nil => exact ⟨[], items, .nil, h, by simp [pushed], rfl, fun _ _ => rfl⟩
  | cons move later ih =>
    cases move with
    | push message =>
      obtain ⟨removed, rest, hall, hrest, harrived, hsubmissions, hothers⟩ :=
        ih (waiting?_afterPush h message)
      refine ⟨removed, rest, hall, hrest, ?_, hsubmissions, fun key hkey => ?_⟩
      · rw [← harrived, List.reverse_cons, List.append_assoc]
        rfl
      · exact (hothers key hkey).trans (get?_afterPush message start hkey)
    | take seconds =>
      obtain ⟨first, hfirst⟩ := take_delivers seconds h
      obtain ⟨left, hleft, hitems⟩ := hfirst.conserves h
      obtain ⟨removed, rest, hall, hrest, harrived, hsubmissions, hothers⟩ := ih hleft
      refine ⟨first :: removed, rest, .cons hfirst hall, hrest, ?_, ?_, fun key hkey => ?_⟩
      · rw [filterMap_cons_eq_append, List.append_assoc, ← harrived, hitems, List.append_assoc]
        rfl
      · rw [takings, filterMap_cons_eq_append, filterMap_cons_eq_append, List.filterMap_append,
          hsubmissions, hfirst.submission?_eq, id, filterMap_toList]
      · exact (hothers key hkey).trans (hfirst.others key hkey)

/-- A server that is busy at first, with two messages of which the older one is no text. -/
def backlog : Session Redis where
  stores := {
    link := { faults := fun n => if n = 0 then some (.refuse "busy") else none, calls := [] }
    keys := [("requests", .list [encode "null", ⟨#[0xff]⟩])] }
  elapsed := 0
  deadline := none

theorem takings_in_order_of_backlog :
    waiting? "requests" backlog.stores = some [encode "null", ⟨#[0xff]⟩] ∧
      ∃ (removed : List (Option ByteArray)) (rest : List ByteArray),
        List.Forall₂ (Delivers "requests")
          (takings "requests" backlog [.take 5, .take 5, .push (encode "[]"), .take 5]) removed ∧
        [⟨#[0xff]⟩, encode "null", encode "[]"] = removed.filterMap id ++ rest.reverse := by
  have hwaiting : waiting? "requests" backlog.stores = some [encode "null", ⟨#[0xff]⟩] := rfl
  obtain ⟨removed, rest, hall, -, harrived, -⟩ :=
    takings_in_order hwaiting [.take 5, .take 5, .push (encode "[]"), .take 5]
  exact ⟨hwaiting, removed, rest, hall, harrived⟩

end TriggerWatch.Redis
