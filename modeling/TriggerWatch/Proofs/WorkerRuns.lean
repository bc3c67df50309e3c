import TriggerWatch.Proofs.Endings
import TriggerWatch.Proofs.Isolation
import TriggerWatch.Proofs.Parts
import TriggerWatch.Proofs.Timeless
import TriggerWatch.Worker

/-!
# Runs of the worker

The worker works at a desk: the stores lie on it beside a queue whose answers are laid down.
Whatever the queue answers, a run of the worker is the run of evaluations of the submissions it
receives, each made to its end before the queue is asked again. Messages that are no submissions,
empty answers and failures of the queue leave the stores alone, and a failure costs a second of
waiting.

## Main definitions

- `Worker.Receipt` — what the queue answers
- `Worker.Desk` — stores in memory beside a queue whose answers are laid down
- `Worker.requestsOf` — the submissions received, each with its reading of the clock
- `Worker.Stats.after` — the stats after some episodes
- `Worker.deliveries` — what the worker has to deal with

## Main statements

- `Worker.handle_receipt` — what one answer of the queue comes to
- `Worker.serve_eq` — what a number of answers comes to
- `Worker.serve_eq_run` — to serve a queue is to deal with the list of its answers
- `Worker.work_eq_episodes` — a run of the worker is a run of evaluations
-/

namespace TriggerWatch

open Memory (Backing)

variable {b : Backing} {e : Evaluator Memory}

/-! ### Runs in parts -/

namespace Evaluator

theorem final_append (start : Session Memory) (requests requests' : List Request) :
    e.final start (requests ++ requests') = e.final (e.final start requests) requests' := by
  induction requests generalizing start with
  | nil => rfl
  | cons request rest ih => exact ih _

theorem episodes_append (start : Session Memory) (requests requests' : List Request) :
    e.episodes start (requests ++ requests') =
      e.episodes start requests ++ e.episodes (e.final start requests) requests' := by
  induction requests generalizing start with
  | nil => rfl
  | cons request rest ih => exact congrArg (_ :: ·) (ih _)

theorem length_episodes (start : Session Memory) (requests : List Request) :
    (e.episodes start requests).length = requests.length := by
  induction requests generalizing start with
  | nil => rfl
  | cons request rest ih => exact congrArg (· + 1) (ih _)

theorem deadline_final (he : e.IsTimeless) (start : Session Memory) (requests : List Request) :
    (e.final start requests).deadline = start.deadline := by
  induction requests generalizing start with
  | nil => rfl
  | cons request rest ih =>
    exact (ih _).trans ((he.evaluate request.submission request.clock).deadline start)

end Evaluator

/-! ### What becomes of submissions -/

def Episode.failure? (ep : Episode) : Option EvaluationFailure :=
  match ep.result with
  | .error (.failed failure) => some failure
  | _ => none

/-- An outcome or a failure is the result of the evaluation as the worker gets it. -/
theorem Episode.IsAnswered.exists_result {ep : Episode} (h : ep.IsAnswered) :
    ∃ result : Except EvaluationFailure Outcome, ep.result = result.mapError .failed := by
  rcases h with ⟨outcome, hr⟩ | ⟨failure, hr⟩
  · exact ⟨.ok outcome, hr⟩
  · exact ⟨.error failure, hr⟩

namespace Worker

/-- The stats after some more episodes: those with an outcome, those that met a failing store, and
those of refused submissions. -/
def Stats.after (stats : Stats) (episodes : List Episode) : Stats where
  evaluated := stats.evaluated + episodes.countP fun ep => ep.kind?.isSome
  failed := stats.failed + episodes.countP fun ep => ep.failure?.any fun f => !f.isRejection
  rejected := stats.rejected + episodes.countP fun ep => ep.failure?.any fun f => f.isRejection

theorem Stats.after_append (stats : Stats) (episodes episodes' : List Episode) :
    stats.after (episodes ++ episodes') = (stats.after episodes).after episodes' := by
  simp only [after, List.countP_append, Nat.add_assoc]

theorem Stats.after_singleton {ep : Episode} {result : Except EvaluationFailure Outcome}
    (h : ep.result = result.mapError .failed) (stats : Stats) :
    stats.after [ep] = stats.count result := by
  cases result with
  | ok outcome =>
    have hresult : ep.result = .ok outcome := h
    simp [count, after, Episode.kind?, Episode.failure?, hresult]
  | error failure =>
    have hresult : ep.result = .error (.failed failure) := h
    cases hf : failure.isRejection <;>
      simp [count, after, Episode.kind?, Episode.failure?, hresult, hf]

theorem Stats.sum_count (stats : Stats) (result : Except EvaluationFailure Outcome) :
    (stats.count result).evaluated + (stats.count result).rejected + (stats.count result).failed =
      stats.evaluated + stats.rejected + stats.failed + 1 := by
  cases result with
  | ok outcome =>
    simp only [count]
    omega
  | error failure => cases hf : failure.isRejection <;> simp [count, hf] <;> omega

/-- Every episode with an outcome or a failure is counted once. -/
theorem Stats.sum_after {episodes : List Episode} (h : ∀ ep ∈ episodes, ep.IsAnswered)
    (stats : Stats) : (stats.after episodes).evaluated + (stats.after episodes).rejected +
      (stats.after episodes).failed =
        stats.evaluated + stats.rejected + stats.failed + episodes.length := by
  induction episodes generalizing stats with
  | nil => rfl
  | cons ep rest ih =>
    obtain ⟨result, hresult⟩ := (h ep List.mem_cons_self).exists_result
    have hrest := ih (fun ep hep => h ep (List.mem_cons_of_mem _ hep)) (stats.after [ep])
    rw [Stats.after_singleton hresult, Stats.sum_count] at hrest
    rw [← List.singleton_append, Stats.after_append, Stats.after_singleton hresult, hrest,
      List.length_append, List.length_singleton]
    omega

/-! ### The queue -/

/-- What the queue answers, before messages are read. -/
inductive Receipt where
  | message (text : String)
  | nothing
  | failure (cause : StoreFailure)

namespace Receipt

/-- The submission in an answer, if there is one that can be read. -/
def submission? : Receipt → Option Submission
  | .message text => Submission.ofText? text
  | _ => none

def isFailure : Receipt → Bool
  | .failure _ => true
  | _ => false

/-- The answer as the intake gives it. -/
def answer : Receipt → Except StoreFailure (Option Submission)
  | .message text => .ok (Submission.ofText? text)
  | .nothing => .ok none
  | .failure cause => .error cause

/-- The evaluation that follows an answer, if there is one. -/
def requests (clock : ClockReadings) (r : Receipt) : List Request :=
  (r.submission?.map fun submission => { submission, clock }).toList

end Receipt

/-- The evaluations that follow the answers of the queue. The wall clock is read anew for each
answer. -/
def requestsOf (clock : Nat → ClockReadings) : List Receipt → List Request
  | [] => []
  | r :: rest => r.requests (clock 0) ++ requestsOf (fun n => clock (n + 1)) rest

/-- Stores in memory beside a queue whose answers are laid down. -/
structure Desk where
  memory : Memory
  /-- The answers of the queue that are still to come. After them nothing is received. -/
  answers : List Receipt
  /-- What the queue answers when it is asked for its length. -/
  length : Except StoreFailure Nat
  /-- The stores as they were each time the queue was asked for a message. -/
  seen : List Memory

namespace Desk

def setMemory (memory : Memory) (desk : Desk) : Desk := { desk with memory }

theorem isPart_memory : IsPart memory setMemory := ⟨fun _ _ => rfl, fun _ => rfl, fun _ _ _ => rfl⟩

def next (desk : Desk) : Receipt := desk.answers.headD .nothing

/-- The desk after the queue was asked for a message, with the stores as they are seen then. -/
def asked (desk : Desk) (memory : Memory) : Desk :=
  { desk with answers := desk.answers.tail, seen := desk.seen ++ [memory] }

/-- The queue of a desk. -/
def intake : Intake Desk where
  take _ := do
    let desk ← Action.stores
    Action.modifyStores fun desk => desk.asked desk.memory
    Action.ofExcept desk.next.answer
  length := do
    Action.ofExcept (← Action.stores).length

/-- A session at a desk with the stores of another session, some milliseconds later. -/
def session (desk : Desk) (milliseconds : Nat) (s : Session Memory) : Session Desk where
  stores := { desk with memory := s.stores }
  elapsed := s.elapsed + milliseconds
  deadline := s.deadline.map (· + milliseconds)

variable (desk : Desk) (milliseconds : Nat) (s : Session Memory)

theorem session_later (more : Nat) :
    desk.session milliseconds (s.later more) = desk.session (milliseconds + more) s := by
  rcases s with ⟨stores, elapsed, _ | due⟩ <;>
    simp [session, Session.later, Nat.add_assoc, Nat.add_comm more]

/-- What is done with the stores of a desk is done as on their own and earlier. -/
theorem onSession_focus {ε α : Type} {a : Action Memory ε α} (ha : a.IsTimeless) :
    (a.focus memory setMemory).onSession (desk.session milliseconds s) =
      ((a.onSession s).1, desk.session milliseconds (a.onSession s).2) := by
  have hlater : a.onSession { desk.session milliseconds s with
      stores := (desk.session milliseconds s).stores.memory } =
        ((a.onSession s).1, (a.onSession s).2.later milliseconds) := ha.later milliseconds s
  rw [Action.onSession_focus, hlater]
  rfl

theorem onSession_take {ε : Type} (seconds : Nat) :
    (Action.attempt (intake.take seconds) : Action Desk ε _).onSession
      (desk.session milliseconds s) =
      (.ok desk.next.answer, (desk.asked s.stores).session milliseconds s) := by
  have hran : (intake.take seconds).onSession (desk.session milliseconds s) =
      (desk.next.answer.mapError .failed, (desk.asked s.stores).session milliseconds s) := by
    refine (Action.onSession_bind_ok rfl).trans ((Action.onSession_bind_ok rfl).trans ?_)
    change (Action.ofExcept desk.next.answer).onSession _ = _
    cases desk.next.answer <;> rfl
  rw [Action.onSession_attempt, hran]
  cases desk.next.answer <;> rfl

/-- Asking for the length of the queue changes nothing, whatever the answer is. -/
theorem onSession_length {ε : Type} (t : Session Desk) :
    (Action.attempt intake.length : Action Desk ε _).onSession t = (.ok t.stores.length, t) := by
  have hran : intake.length.onSession t = (t.stores.length.mapError .failed, t) := by
    refine (Action.onSession_bind_ok rfl).trans ?_
    cases t.stores.length <;> rfl
  rw [Action.onSession_attempt, hran]
  cases t.stores.length <;> rfl

/-- The desk after the queue was asked for a number of messages. The stores are seen as the
evaluations before left them. -/
def askedTimes (e : Evaluator Memory) (clock : Nat → ClockReadings) (start : Session Memory)
    (times : Nat) : Desk :=
  { desk with
    answers := desk.answers.drop times
    seen := desk.seen ++ (List.range times).map fun k =>
      (e.final start (requestsOf clock (desk.answers.take k))).stores }

end Desk

/-! ### Answers in sequence -/

section

variable (clock : Nat → ClockReadings) (answers : List Receipt) (times : Nat)

theorem requestsOf_take_succ : requestsOf clock (answers.take (times + 1)) =
    (answers.headD .nothing).requests (clock 0) ++
      requestsOf (fun n => clock (n + 1)) (answers.tail.take times) := by
  cases answers with
  | nil =>
    rw [List.tail_nil, List.take_nil, List.take_nil]
    rfl
  | cons r rest => rfl

theorem countP_take_succ (p : Receipt → Bool) (h : p .nothing = false) :
    (answers.take (times + 1)).countP p =
      [answers.headD .nothing].countP p + (answers.tail.take times).countP p := by
  cases answers with
  | nil => simp [h]
  | cons r rest =>
    rw [List.take_succ_cons, ← List.singleton_append, List.countP_append]
    rfl

/-- The first question, and all others. -/
theorem Desk.askedTimes_succ (e : Evaluator Memory) (desk : Desk) (start : Session Memory) :
    (desk.asked start.stores).askedTimes e (fun n => clock (n + 1))
        (e.final start (desk.next.requests (clock 0))) times =
      desk.askedTimes e clock start (times + 1) := by
  have hseen (k : Nat) : e.final start (requestsOf clock (desk.answers.take (k + 1))) =
      e.final (e.final start (desk.next.requests (clock 0)))
        (requestsOf (fun n => clock (n + 1)) (desk.answers.tail.take k)) := by
    rw [requestsOf_take_succ, Evaluator.final_append]
    rfl
  simp only [askedTimes, asked, List.drop_tail, List.range_succ_eq_map, List.map_cons,
    List.map_map, Function.comp_def, Nat.succ_eq_add_one, hseen, List.append_assoc]
  rfl

end

/-! ### Rounds -/

section

variable {ε : Type}

theorem handle_within {σ τ : Type} {get : σ → τ} {set : τ → σ → σ} (h : IsPart get set)
    (e : Evaluator τ) (clock : ClockReadings) (delivery : Delivery) (stats : Stats) :
    (handle (e.within get set) clock delivery stats : Action σ ε Stats) =
      (handle e clock delivery stats).focus get set := by
  cases delivery with
  | submission s => simp only [handle, Evaluator.evaluate_within h, Action.focus_bind h,
      Action.focus_pure h, Action.focus_attempt]
  | nothing => exact (Action.focus_pure h stats).symm
  | failure cause => simp only [handle, Action.focus_bind h, Action.focus_pure h,
      Action.focus_wait h]

theorem isTimeless_handle {σ : Type} {e : Evaluator σ} (he : e.IsTimeless) (clock : ClockReadings)
    (delivery : Delivery) (stats : Stats) :
    (handle e clock delivery stats : Action σ ε Stats).IsTimeless := by
  cases delivery with
  | submission s => exact (he.evaluate s clock).attempt.bind fun _ => .pure _
  | nothing => exact .pure stats
  | failure cause => exact (Action.IsTimeless.wait backoff).bind fun _ => .pure stats

/-- What is dealt with at a desk is dealt with as on the stores alone. -/
theorem Desk.onSession_handle (he : e.IsTimeless) (desk : Desk) (milliseconds : Nat)
    (s : Session Memory) (clock : ClockReadings) (delivery : Delivery) (stats : Stats) :
    (handle (e.within memory setMemory) clock delivery stats : Action Desk ε Stats).onSession
        (desk.session milliseconds s) =
      (((handle e clock delivery stats : Action Memory ε Stats).onSession s).1,
        desk.session milliseconds
          ((handle e clock delivery stats : Action Memory ε Stats).onSession s).2) := by
  rw [handle_within isPart_memory, onSession_focus _ _ _ (isTimeless_handle he _ _ _)]

/-- A submission is evaluated to its end and counted. -/
theorem handle_submission {s : Submission} {clock : ClockReadings} {session : Session Memory}
    (h : (e.episode session ⟨s, clock⟩).IsAnswered) (stats : Stats) :
    (handle e clock (.submission s) stats : Action Memory ε Stats).onSession session =
      (.ok (stats.after [e.episode session ⟨s, clock⟩]),
        (e.episode session ⟨s, clock⟩).after) := by
  obtain ⟨result, hresult⟩ := h.exists_result
  have hran : ((e.evaluate s clock).onSession session).1 = result.mapError .failed := hresult
  have hattempt : ((e.evaluate s clock).attempt : Action Memory ε _).onSession session = _ :=
    Action.onSession_attempt _ _
  rw [Stats.after_singleton hresult]
  cases result <;> rw [hran] at hattempt <;> exact Action.onSession_bind_ok hattempt

/-- What one answer of the queue comes to. -/
theorem handle_receipt {session : Session Memory} (hdeadline : session.deadline = none)
    {r : Receipt} {clock : ClockReadings}
    (h : ∀ ep ∈ e.episodes session (r.requests clock), ep.IsAnswered) (stats : Stats) :
    (handle e clock (Delivery.ofAnswer r.answer) stats : Action Memory ε Stats).onSession session =
      (.ok (stats.after (e.episodes session (r.requests clock))),
        (e.final session (r.requests clock)).later (backoff * [r].countP Receipt.isFailure)) := by
  have idle : ((.ok stats, session) : Except (Stop ε) Stats × Session Memory) =
      (.ok (stats.after []), session.later 0) := by
    rw [Session.later_zero]
    rfl
  cases r with
  | message text =>
    cases hs : Submission.ofText? text with
    | none =>
      have hrequests : (Receipt.message text).requests clock = [] := by
        simp [Receipt.requests, Receipt.submission?, hs]
      rw [hrequests, Receipt.answer, hs]
      exact idle
    | some s =>
      have hrequests : (Receipt.message text).requests clock = [⟨s, clock⟩] := by
        simp [Receipt.requests, Receipt.submission?, hs]
      rw [hrequests] at h ⊢
      rw [Receipt.answer, hs]
      refine (handle_submission (h _ List.mem_cons_self) stats).trans ?_
      exact congrArg (Prod.mk _) (Session.later_zero _).symm
  | nothing => exact idle
  | failure cause =>
    have hwait : (Action.wait backoff : Action Memory ε Unit).onSession session =
        (.ok (), session.later backoff) := by
      simp [Action.wait, Action.onSession, Action.ofStep, Session.later, hdeadline]
    exact Action.onSession_bind_ok hwait

/-- What a number of answers of the queue comes to. -/
theorem serve_eq (he : e.IsTimeless) (desk : Desk) (milliseconds : Nat) {start : Session Memory}
    (hdeadline : start.deadline = none) (seconds : Nat) (clock : Nat → ClockReadings)
    (stats : Stats) (times : Nat)
    (h : ∀ ep ∈ e.episodes start (requestsOf clock (desk.answers.take times)), ep.IsAnswered) :
    (serve (e.within Desk.memory Desk.setMemory) Desk.intake seconds clock stats times :
        Action Desk ε Stats).onSession (desk.session milliseconds start) =
      (.ok (stats.after (e.episodes start (requestsOf clock (desk.answers.take times)))),
        (desk.askedTimes e clock start times).session
          (milliseconds + backoff * (desk.answers.take times).countP Receipt.isFailure)
          (e.final start (requestsOf clock (desk.answers.take times)))) := by
  -- from one question to the next the stores are those of the last evaluation, and the milliseconds
  -- are the waits so far
  induction times generalizing desk milliseconds start clock stats with
  | zero =>
    simp only [Desk.askedTimes, List.take_zero, List.drop_zero, List.range_zero, List.map_nil,
      List.append_nil, List.countP_nil, Nat.mul_zero, Nat.add_zero]
    rfl
  | succ times ih =>
    rw [requestsOf_take_succ, Evaluator.episodes_append] at h ⊢
    have hfirst : ∀ ep ∈ e.episodes start (desk.next.requests (clock 0)), ep.IsAnswered :=
      (List.forall_mem_append.mp h).1
    have hmid := (Evaluator.deadline_final he start
      (desk.next.requests (clock 0))).trans hdeadline
    have hhandle : (handle (e.within Desk.memory Desk.setMemory) (clock 0)
        (Delivery.ofAnswer desk.next.answer) stats : Action Desk ε Stats).onSession
          ((desk.asked start.stores).session milliseconds start) =
        (.ok (stats.after (e.episodes start (desk.next.requests (clock 0)))),
          (desk.asked start.stores).session
            (milliseconds + backoff * [desk.next].countP Receipt.isFailure)
            (e.final start (desk.next.requests (clock 0)))) := by
      rw [Desk.onSession_handle he, handle_receipt hdeadline hfirst, Desk.session_later]
    refine (Action.onSession_bind_ok (desk.onSession_take milliseconds start seconds)).trans ?_
    refine (Action.onSession_bind_ok hhandle).trans ?_
    refine (ih (desk.asked start.stores) _ hmid _ _ (List.forall_mem_append.mp h).2).trans ?_
    rw [Desk.askedTimes_succ, Stats.after_append, Evaluator.final_append,
      countP_take_succ _ _ _ rfl, Nat.mul_add, ← Nat.add_assoc]
    rfl

/-- What the worker has to deal with. -/
def deliveries (answers : List Receipt) : List Delivery :=
  answers.map fun r => Delivery.ofAnswer r.answer

/-- After the last answer nothing is received. -/
theorem run_take_succ (clock : Nat → ClockReadings) (stats : Stats) (answers : List Receipt)
    (times : Nat) : (run e clock stats (deliveries (answers.take (times + 1))) :
        Action Memory ε Stats) =
      (do
        let stats ← handle e (clock 0) (Delivery.ofAnswer (answers.headD .nothing).answer) stats
        run e (fun n => clock (n + 1)) stats (deliveries (answers.tail.take times))) := by
  cases answers with
  | nil =>
    rw [List.tail_nil, List.take_nil, List.take_nil]
    exact (pure_bind stats _).symm
  | cons r rest => rfl

/-- To serve a queue is to deal with the list of its answers: the worker ends in the same way, also
where an evaluation is stopped by the calendar, and it leaves the same stores at the same time. -/
theorem serve_eq_run (he : e.IsTimeless) (desk : Desk) (milliseconds : Nat)
    (start : Session Memory) (seconds : Nat) (clock : Nat → ClockReadings) (stats : Stats)
    (times : Nat) :
    ∃ result after, ∃ desk' : Desk,
      (run e clock stats (deliveries (desk.answers.take times)) :
        Action Memory ε Stats).onSession start = (result, after) ∧
      (serve (e.within Desk.memory Desk.setMemory) Desk.intake seconds clock stats times :
        Action Desk ε Stats).onSession (desk.session milliseconds start) =
          (result, desk'.session milliseconds after) := by
  induction times generalizing desk start clock stats with
  | zero => exact ⟨.ok stats, start, desk, rfl, rfl⟩
  | succ times ih =>
    have htake := desk.onSession_take (ε := ε) milliseconds start seconds
    have hhandle := (desk.asked start.stores).onSession_handle (ε := ε) he milliseconds start
      (clock 0) (Delivery.ofAnswer desk.next.answer) stats
    rw [run_take_succ]
    rcases hran : (handle e (clock 0) (Delivery.ofAnswer desk.next.answer) stats :
        Action Memory ε Stats).onSession start with ⟨stop | stats', s⟩ <;> rw [hran] at hhandle
    · exact ⟨.error stop, s, desk.asked start.stores, Action.onSession_bind_error hran,
        (Action.onSession_bind_ok htake).trans (Action.onSession_bind_error hhandle)⟩
    · obtain ⟨result, after, desk', hrun, hserve⟩ :=
        ih (desk.asked start.stores) s (fun n => clock (n + 1)) stats'
      exact ⟨result, after, desk', (Action.onSession_bind_ok hran).trans hrun,
        (Action.onSession_bind_ok htake).trans ((Action.onSession_bind_ok hhandle).trans hserve)⟩

end

/-! ### Whole runs -/

/-- Each answer that can be read is evaluated once, in the order of the queue. -/
theorem map_submission_requestsOf (clock : Nat → ClockReadings) (answers : List Receipt) :
    (requestsOf clock answers).map Request.submission = answers.filterMap Receipt.submission? := by
  induction answers generalizing clock with
  | nil => rfl
  | cons r rest ih =>
    rw [requestsOf, List.map_append, ih, Receipt.requests, filterMap_cons_eq_append]
    cases r.submission? <;> rfl

/-- The stores of a desk on their own, when the worker begins. -/
def Desk.start (desk : Desk) : Session Memory :=
  { stores := desk.memory, elapsed := 0, deadline := none }

/-- A run of the worker is a run of evaluations. Whatever the queue answers, when it is asked for
its length and each time it is asked for a message, and whatever happens to the store calls, the
worker goes on as often as it is to, if no evaluation is stopped by the calendar. The messages that
are submissions are evaluated once and in their order, and what is left of the stores is what these
evaluations alone leave. Each time the queue is asked, the stores are seen as the evaluations before
left them. The stats count the evaluations with an outcome, the refusals and the other failures, and
each failure of the queue adds a second to the time. -/
theorem work_eq_episodes {settings : Settings.Evaluation}
    (he : Evaluator.inMemory? b settings = some e) {ε : Type} (desk : Desk)
    (clock : Nat → ClockReadings) (seconds times : Nat)
    (hstop : ∀ ep ∈ e.episodes desk.start (requestsOf clock (desk.answers.take times)),
      ep.stop? ≠ some .outsideCalendar) :
    let requests := requestsOf clock (desk.answers.take times)
    let episodes := e.episodes desk.start requests
    ∃ stats after,
      (work (e.within Desk.memory Desk.setMemory) Desk.intake seconds clock times :
          Action Desk ε Stats).onSession { stores := desk, elapsed := 0, deadline := none } =
        (.ok stats, after) ∧
      requests.map Request.submission =
        (desk.answers.take times).filterMap Receipt.submission? ∧
      after.stores.memory = (e.final desk.start requests).stores ∧
      after.stores.answers = desk.answers.drop times ∧
      after.stores.seen = desk.seen ++ (List.range times).map (fun k =>
        (e.final desk.start (requestsOf clock (desk.answers.take k))).stores) ∧
      after.elapsed = (e.final desk.start requests).elapsed +
        1000 * (desk.answers.take times).countP Receipt.isFailure ∧
      stats.evaluated = (episodes.countP fun ep => ep.kind?.isSome) ∧
      stats.rejected = (episodes.countP fun ep => ep.failure?.any fun f => f.isRejection) ∧
      stats.failed = (episodes.countP fun ep => ep.failure?.any fun f => !f.isRejection) ∧
      stats.evaluated + stats.rejected + stats.failed =
        ((desk.answers.take times).filterMap Receipt.submission?).length := by
  intro requests episodes
  -- the calendar is all that can stop an evaluation without an answer
  have hanswered : ∀ ep ∈ episodes, ep.IsAnswered := by
    intro ep hep
    have hepisode := (Evaluator.mem_episodes hep).2
    have hends := Evaluator.isAnswered_or_sub?_eq_none
      (Evaluator.isInMemory_of_inMemory? he) ep.before ep.request
    rw [← hepisode] at hends
    exact hends.resolve_right fun hstopped => hstop ep hep hstopped.1
  have hserved := serve_eq (ε := ε) (Evaluator.isTimeless_of_inMemory? he) desk 0
    (show desk.start.deadline = none from rfl) seconds clock Stats.none times hanswered
  have hsum := Stats.sum_after hanswered Stats.none
  have hlength : episodes.length =
      ((desk.answers.take times).filterMap Receipt.submission?).length := by
    rw [← map_submission_requestsOf clock, List.length_map]
    exact Evaluator.length_episodes _ _
  refine ⟨_, _, (Action.onSession_bind_ok (Desk.onSession_length _)).trans hserved,
    map_submission_requestsOf clock _, rfl, rfl, rfl, ?_, Nat.zero_add _, Nat.zero_add _,
    Nat.zero_add _, ?_⟩
  · exact congrArg (_ + ·) (Nat.zero_add _)
  · rw [hsum, hlength]
    exact Nat.zero_add _

/-- A message with a reading of 3 and a rule that asks for a share of readings below 4. -/
def sampleText (timestamp share : String) : String :=
  "[\"boiler\",\"level\",3,\"" ++ timestamp ++ "\",\"low\",\"level\",null,null,4," ++ share ++
    ",60]"

/-- Stores that refuse the seventh call, beside a queue that fails once and holds two messages that
are no good: one is no submission, and one asks for more than all readings. -/
def mixedDesk : Desk where
  memory := (Session.fresh fun n => if n = 6 then some (.refuse "down") else none).stores
  answers := [
    .failure (.backend "down"),
    .message "level",
    .message (sampleText "2024-05-01T10:00:00Z" "0.5"),
    .nothing,
    .message (sampleText "2024-05-01T10:01:00Z" "7"),
    .message (sampleText "2024-05-01T10:02:00Z" "0.5")]
  length := .error (.backend "down")
  seen := []

/-- The evaluations that the worker makes at this desk. -/
def mixedEpisodes : List Episode :=
  (Evaluator.standard .apart).episodes mixedDesk.start
    (requestsOf (fun _ => ⟨.earliest, .earliest⟩) (mixedDesk.answers.take 8))

/-- The worker goes on to the end and counts one submission of each sort. -/
theorem work_eq_episodes_of_mixedDesk :
    ∃ (stats : Stats) (after : Session Desk),
      (work ((Evaluator.standard .apart).within Desk.memory Desk.setMemory) Desk.intake 5
          (fun _ => ⟨.earliest, .earliest⟩) 8 : Action Desk Empty Stats).onSession
        { stores := mixedDesk, elapsed := 0, deadline := none } = (.ok stats, after) ∧
      stats.evaluated = 1 ∧ stats.rejected = 1 ∧ stats.failed = 1 ∧
      after.elapsed = 1000 ∧ after.stores.seen.length = 8 := by
  have hshown : (∀ ep ∈ mixedEpisodes, ep.stop? ≠ some .outsideCalendar) ∧
      (mixedEpisodes.countP fun ep => ep.kind?.isSome) = 1 ∧
      (mixedEpisodes.countP fun ep => ep.failure?.any fun f => f.isRejection) = 1 ∧
      (mixedEpisodes.countP fun ep => ep.failure?.any fun f => !f.isRejection) = 1 := by
    decide +kernel
  obtain ⟨hstop, hone, htwo, hthree⟩ := hshown
  have htime : ((Evaluator.standard .apart).final mixedDesk.start (requestsOf
      (fun _ => ⟨.earliest, .earliest⟩) (mixedDesk.answers.take 8))).elapsed = 0 := by
    decide +kernel
  obtain ⟨stats, after, hran, -, -, -, hseen, helapsed, hevaluated, hrejected, hfailed, -⟩ :=
    work_eq_episodes (ε := Empty) (Evaluator.inMemory?_default .apart) mixedDesk
      (fun _ => ⟨.earliest, .earliest⟩) 5 8 hstop
  have hfailures : (mixedDesk.answers.take 8).countP Receipt.isFailure = 1 := rfl
  refine ⟨stats, after, hran, hevaluated.trans hone, hrejected.trans htwo, hfailed.trans hthree,
    ?_, ?_⟩
  · rw [helapsed, hfailures, htime]
  · rw [hseen, List.length_append, List.length_map, List.length_range]
    rfl

end Worker

end TriggerWatch
