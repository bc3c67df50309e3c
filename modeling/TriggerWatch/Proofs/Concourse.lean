import Mathlib.Logic.Function.Basic
import TriggerWatch.Proofs.Retention
import TriggerWatch.Proofs.Turns

/-!
# Histories under turns

A reading joins a history in two steps. The records are read first; only later are they written
again, with the reading and without what has become too old. In between any other task can take a
step of its own, and each of the two calls can fail. What keeps a task from writing over the reading
of another one is that it has its turn on the device from before the first step until after the
second, so that the records it read are still those of the history.

## Main definitions

- `History.revise` — what is left of an ingestion once the records are read
- `Errand` — an ingestion that a task has to make
- `Errand.after` — the document of a history after an errand
- `Concourse` — tasks with their errands in front of a turnstile
- `Concourse.next?` — one step of one task
- `Concourse.Tracks` — what the histories have to do with the errands

## Main statements

- `Concourse.IsTracked.next` — each step keeps histories and errands together
- `Concourse.history?_of_steps` — no errand is lost
-/

namespace TriggerWatch

open Memory (Responds)

/-! ### Errands -/

/-- What is left of an ingestion once the records are read. -/
def History.revise {σ : Type} (docs : Documents σ) (retention : Span) (device : String)
    (reading : Reading) (now : Instant) (records : List Json) :
    Action σ StoreFailure (List Json) := do
  let horizon ← Action.inCalendar (now.sub? retention)
  let kept := keepRecent horizon (records ++ [reading.toJson])
  save docs device kept
  return kept

/-- An ingestion that a task has to make. -/
structure Errand where
  device : String
  reading : Reading
  now : Instant

/-- The document under the key of a history. -/
def Session.history? (s : Session Memory) (device : String) : Option Json :=
  s.stores.document? (Key.history device)

namespace Errand

variable {retention : Span} {s : Session Memory}

def ingest (retention : Span) (e : Errand) : Action Memory StoreFailure (List Json) :=
  History.ingest Memory.documentStore retention e.device e.reading e.now

def load (e : Errand) : Action Memory StoreFailure (List Json) :=
  History.load Memory.documentStore e.device

def revise (retention : Span) (e : Errand) (records : List Json) :
    Action Memory StoreFailure (List Json) :=
  History.revise Memory.documentStore retention e.device e.reading e.now records

/-- The records that stay once a reading has joined others. -/
def kept (e : Errand) (horizon : Instant) (records : List Json) : List Json :=
  History.keepRecent horizon (records ++ [e.reading.toJson])

/-- The document of a history after an errand. One whose horizon lies outside the calendar leaves
it. -/
def after (retention : Span) (document : Option Json) (e : Errand) : Option Json :=
  match e.now.sub? retention with
  | some horizon => some (.array (e.kept horizon (History.recordsOf document)))
  | none => document

/-- Make errands one after the other, whether or not they succeed. -/
def ingestAll (retention : Span) (errands : List Errand) (s : Session Memory) : Session Memory :=
  errands.foldl (fun s e => ((e.ingest retention).onSession s).2) s

/-- Between its two steps an ingestion does nothing. -/
theorem ingest_eq (e : Errand) : e.ingest retention = e.load >>= e.revise retention := rfl

theorem load_responds (e : Errand) : Behaves .apart e.load
    (Responds (fun m => History.recordsOf (m.document? (Key.history e.device))) fun _ => []) :=
  History.load_responds e.device

/-- The ends of the second step. -/
inductive Revises (retention : Span) (e : Errand) (records : List Json) :
    Memory.Ending StoreFailure (List Json)
  | kept {m : Memory} {horizon : Instant} (h : e.now.sub? retention = some horizon) :
    Revises retention e records m (.ok (e.kept horizon records))
      [.put (Key.history e.device) (.array (e.kept horizon records))]
  | offCalendar {m : Memory} (h : e.now.sub? retention = none) :
    Revises retention e records m (.error .outsideCalendar) []
  | missed {m : Memory} (stop : Stop StoreFailure) (hm : m.IsFaulty) :
    Revises retention e records m (.error stop) []

theorem revise_behaves (retention : Span) (e : Errand) (records : List Json) :
    Behaves .apart (e.revise retention records) (Revises retention e records) := by
  refine (Behaves.bind (Behaves.inCalendar (e.now.sub? retention)) fun horizon =>
    Responds.map (fun _ => e.kept horizon records)
      (Memory.putDocument_responds (Key.history e.device)
        (.array (e.kept horizon records)))).mono fun m r fx h => ?_
  rcases h with ⟨hc⟩ | ⟨hc, ev, h⟩
  · obtain ⟨⟨_, _, ⟨⟩⟩ | ⟨hs, ⟨⟩⟩, rfl⟩ := hc
    exact .offCalendar hs
  · obtain ⟨⟨horizon, hs, ⟨⟩⟩ | ⟨_, ⟨⟩⟩, rfl⟩ := hc
    cases h with
    | answered => exact .kept hs
    | failed cause hm | unanswered hm => exact .missed _ (ev.isFaulty_iff.mp hm)

theorem history?_of_put {t : Session Memory} {device : String} {document : Json}
    (ev : s.stores.Evolves .apart [.put (Key.history device) document] t.stores)
    (other : String) :
    t.history? other = if device = other then some document else s.history? other := by
  refine (ev.document?_enacted _).trans ((Memory.document?_put (b := .apart) _ _ _).trans ?_)
  by_cases hd : device = other
  · rw [if_pos hd, if_pos (congrArg Key.history hd)]
  · rw [if_neg hd, if_neg fun hk => hd (Key.history_inj hk)]
    rfl

theorem history?_of_nil {t : Session Memory} (ev : s.stores.Evolves .apart [] t.stores)
    (device : String) : t.history? device = s.history? device :=
  ev.document?_eq (by simp)

/-- Without faults an errand makes of the history of its device what it should. -/
theorem onSession_ingest (retention : Span) (e : Errand) (hs : ¬ s.stores.IsFaulty) :
    ¬ ((e.ingest retention).onSession s).2.stores.IsFaulty ∧
      ((e.ingest retention).onSession s).2.history? e.device =
        after retention (s.history? e.device) e := by
  obtain ⟨t, hload, ev⟩ := Responds.onSession (load_responds e) hs
  have ht : ¬ t.stores.IsFaulty := mt ev.isFaulty_iff.mp hs
  obtain ⟨fx, hrevises, ev'⟩ :=
    revise_behaves retention e (History.recordsOf (s.history? e.device)) t
  have hran : (e.ingest retention).onSession s =
      (e.revise retention (History.recordsOf (s.history? e.device))).onSession t := by
    rw [ingest_eq]
    exact Action.onSession_bind_ok hload
  rw [hran]
  refine ⟨mt ev'.isFaulty_iff.mp ht, ?_⟩
  generalize ((e.revise retention (History.recordsOf (s.history? e.device))).onSession t).1 = r
    at hrevises
  cases hrevises with
  | kept h =>
    rw [history?_of_put ev', if_pos rfl, after, h]
  | offCalendar h => rw [history?_of_nil ev', history?_of_nil ev, after, h]
  | missed stop hm => exact absurd hm ht

/-- Errands on one device, one after the other. -/
theorem history?_ingestAll {errands : List Errand} {device : String}
    (hon : ∀ e ∈ errands, e.device = device) (hs : ¬ s.stores.IsFaulty) :
    (ingestAll retention errands s).history? device =
      errands.foldl (after retention) (s.history? device) := by
  induction errands generalizing s with
  | nil => rfl
  | cons e rest ih =>
    obtain ⟨hsound, hdoc⟩ := onSession_ingest retention e hs
    rw [hon e List.mem_cons_self] at hdoc
    rw [List.foldl_cons, ← hdoc]
    exact ih (fun x hx => hon x (List.mem_cons_of_mem _ hx)) hsound

end Errand

/-! ### Tasks in front of a turnstile -/

/-- What a task has to do next in the store. -/
inductive Concourse.Progress where
  | idle
  | reading
  | writing (records : List Json)

/-- Tasks with their errands in front of a turnstile. -/
structure Concourse where
  turnstile : Turnstile
  session : Session Memory
  progress : String → Concourse.Progress
  /-- The tasks whose ingestion succeeded, the first one first. -/
  ingested : List String

namespace Concourse

inductive Step where
  | ask (task : String)
  | enter (task : String)
  | read (task : String)
  | write (task : String)
  | unlock (task : String)
  | leave (task : String)

/-- The task that gets its turn. -/
def Step.entering? : Step → Option String
  | .enter task => some task
  | _ => none

/-- Nobody has asked for anything yet. -/
def opened (session : Session Memory) : Concourse where
  turnstile := .empty
  session := session
  progress _ := .idle
  ingested := []

/-- One step of one task, if it can be made. A task that has got its turn reads and writes, as far
as these calls succeed, and only then lets go of the lock. -/
def next? (retention : Span) (errand : String → Errand) (c : Concourse) :
    Step → Option Concourse
  | .ask task =>
    (c.turnstile.next? (.ask task (errand task).device)).map fun turnstile => { c with turnstile }
  | .enter task =>
    (c.turnstile.next? (.enter task)).map fun turnstile =>
      { c with turnstile, progress := Function.update c.progress task .reading }
  | .read task =>
    match c.progress task with
    | .reading =>
      match (errand task).load.onSession c.session with
      | (.ok records, session) => some
          { c with session, progress := Function.update c.progress task (.writing records) }
      | (.error _, session) => some
          { c with session, progress := Function.update c.progress task .idle }
    | _ => none
  | .write task =>
    match c.progress task with
    | .writing records =>
      match ((errand task).revise retention records).onSession c.session with
      | (.ok _, session) => some
          { c with
            session
            progress := Function.update c.progress task .idle
            ingested := c.ingested ++ [task] }
      | (.error _, session) => some
          { c with session, progress := Function.update c.progress task .idle }
    | _ => none
  | .unlock task =>
    match c.progress task with
    | .idle => (c.turnstile.next? (.unlock task)).map fun turnstile => { c with turnstile }
    | _ => none
  | .leave task =>
    (c.turnstile.next? (.leave task)).map fun turnstile => { c with turnstile }

/-- The errands of some tasks that are on a device, in the order of the tasks. -/
def errandsOn (errand : String → Errand) (device : String) (tasks : List String) : List Errand :=
  (tasks.map errand).filter fun e => e.device == device

variable {retention : Span} {errand : String → Errand} {start : Session Memory}
  {entered ingested : List String} {task device : String}

theorem errandsOn_append_self : errandsOn errand (errand task).device (entered ++ [task]) =
    errandsOn errand (errand task).device entered ++ [errand task] := by
  simp [errandsOn]

theorem errandsOn_append_of_ne (h : (errand task).device ≠ device) :
    errandsOn errand device (entered ++ [task]) = errandsOn errand device entered := by
  simp [errandsOn, h]

theorem device_of_mem_errandsOn {e : Errand} (h : e ∈ errandsOn errand device entered) :
    e.device = device := eq_of_beq (List.mem_filter.mp h).2

/-- Some of a list of errands are done, and the others would change nothing, or failed because of a
fault. -/
structure Covers (retention : Span) (start : Session Memory) (done all : List Errand) : Prop where
  sublist : done.Sublist all
  foldl_eq : ¬ start.stores.IsFaulty → ∀ document,
    done.foldl (Errand.after retention) document = all.foldl (Errand.after retention) document

theorem Covers.append {done all : List Errand} (h : Covers retention start done all) (e : Errand) :
    Covers retention start (done ++ [e]) (all ++ [e]) where
  sublist := h.sublist.append (List.Sublist.refl _)
  foldl_eq hs document := by rw [List.foldl_append, List.foldl_append, h.foldl_eq hs]

theorem Covers.append_right {done all : List Errand} (h : Covers retention start done all)
    {e : Errand} (he : start.stores.IsFaulty ∨ e.now.sub? retention = none) :
    Covers retention start done (all ++ [e]) where
  sublist := h.sublist.trans (List.sublist_append_left _ _)
  foldl_eq hs document := by
    have hnone : e.now.sub? retention = none := he.resolve_left hs
    rw [h.foldl_eq hs, List.foldl_append, List.foldl_cons, List.foldl_nil, Errand.after, hnone]

/-- A task that is about to write is so still when another one goes on to anything else. -/
theorem writing_of_update {progress : String → Progress} {next : Progress}
    (hnext : ∀ records, next ≠ .writing records) {other : String} {records : List Json}
    (h : Function.update progress task next other = .writing records) :
    other ≠ task ∧ progress other = .writing records := by
  have hne : other ≠ task := by
    rintro rfl
    rw [Function.update_self] at h
    exact hnext records h
  rw [Function.update_of_ne hne] at h
  exact ⟨hne, h⟩

/-- What the histories have to do with the errands. -/
structure Tracks (retention : Span) (errand : String → Errand) (start : Session Memory)
    (entered ingested : List String) (turnstile : Turnstile) (session : Session Memory)
    (progress : String → Progress) : Prop where
  sound : turnstile.IsSound
  isFaulty_iff : session.stores.IsFaulty ↔ start.stores.IsFaulty
  /-- A task is after the device of its errand. -/
  device_eq : ∀ k ∈ turnstile.tickets, k.device = (errand k.task).device
  /-- Who has something to do in the store has its turn. -/
  holds : ∀ task, progress task ≠ .idle →
    ∃ k ∈ turnstile.tickets, k.task = task ∧ k.stage = .holding
  /-- The history is what the errands that succeeded make of it. -/
  history?_eq : ∀ device, session.history? device =
    (errandsOn errand device ingested).foldl (Errand.after retention) (start.history? device)
  /-- The records that a task has read are those of the history. -/
  fresh : ∀ task records, progress task = .writing records →
    records = History.recordsOf (session.history? (errand task).device)
  /-- If nobody is at work on the history, all errands that got their turn are through. -/
  quiet : ∀ device, (∀ task, (errand task).device = device → progress task = .idle) →
    Covers retention start (errandsOn errand device ingested) (errandsOn errand device entered)
  /-- If somebody is, it is the last one that got its turn. -/
  begun : ∀ task, progress task ≠ .idle → ∃ earlier,
    errandsOn errand (errand task).device entered = earlier ++ [errand task] ∧
    Covers retention start (errandsOn errand (errand task).device ingested) earlier

namespace Tracks

variable {turnstile turnstile' : Turnstile} {session session' : Session Memory}
  {progress : String → Progress}

/-- One task at most is at work on a history. -/
theorem eq_of_busy
    (h : Tracks retention errand start entered ingested turnstile session progress)
    {task' : String} (hbusy : progress task ≠ .idle) (hbusy' : progress task' ≠ .idle)
    (hd : (errand task).device = (errand task').device) : task = task' := by
  obtain ⟨k, hk, rfl, hs⟩ := h.holds task hbusy
  obtain ⟨k', hk', rfl, hs'⟩ := h.holds task' hbusy'
  refine congrArg Turnstile.Ticket.task (h.sound.eq_of_holding hk hk' hs hs' ?_)
  rw [h.device_eq k hk, h.device_eq k' hk', hd]

/-- Moves at the turnstile of tasks that have nothing to do in the store. -/
theorem turn (h : Tracks retention errand start entered ingested turnstile session progress)
    {move : Turnstile.Move} (hm : turnstile.next? move = some turnstile')
    (hask : ∀ task device, move = .ask task device → device = (errand task).device)
    (hunlock : ∀ task, move = .unlock task → progress task = .idle) :
    Tracks retention errand start entered ingested turnstile' session progress := by
  have hmoves := Turnstile.moves_of_next? h.sound.tasks hm
  refine { h with sound := h.sound.next hm, device_eq := ?_, holds := ?_ }
  · intro k' hk'
    rcases hmoves.ask_or_mem hk' with he | ⟨k, hk, ht, hd⟩
    · exact hask _ _ he
    · rw [← hd, ← ht, h.device_eq k hk]
  · intro task hbusy
    obtain ⟨k, hk, rfl, hs⟩ := h.holds task hbusy
    exact ⟨k, hmoves.mem_of_holding hk hs fun he => hbusy (hunlock _ he), rfl, hs⟩

theorem enter (h : Tracks retention errand start entered ingested turnstile session progress)
    (hm : turnstile.next? (.enter task) = some turnstile') :
    Tracks retention errand start (entered ++ [task]) ingested turnstile' session
      (Function.update progress task .reading) := by
  have hturn := h.turn hm nofun nofun
  obtain ⟨k, hk, htask, hk', hfree⟩ := h.sound.of_enter hm
  have hdevice : k.device = (errand task).device := by rw [h.device_eq k hk, htask]
  -- nobody else is at work on the history
  have hquiet : ∀ other, (errand other).device = (errand task).device →
      progress other = .idle := by
    intro other hother
    by_contra hbusy
    obtain ⟨x, hx, rfl, hs⟩ := h.holds other hbusy
    exact hfree x hx (by rw [h.device_eq x hx, hother, hdevice]) hs
  refine { hturn with holds := ?_, fresh := ?_, quiet := ?_, begun := ?_ }
  · intro other hbusy
    by_cases ho : other = task
    · exact ⟨_, hk', htask.trans ho.symm, rfl⟩
    · rw [Function.update_of_ne ho] at hbusy
      exact hturn.holds other hbusy
  · intro other records hwriting
    exact h.fresh other records (writing_of_update (by simp) hwriting).2
  · intro device hidle
    have hd : (errand task).device ≠ device := by
      intro hd
      have htask := hidle task hd
      rw [Function.update_self] at htask
      cases htask
    rw [errandsOn_append_of_ne hd]
    refine h.quiet device ?_
    intro other hother
    have ho : other ≠ task := fun he => hd (he ▸ hother)
    rw [← hidle other hother, Function.update_of_ne ho]
  · intro other hbusy
    by_cases ho : other = task
    · subst ho
      exact ⟨_, errandsOn_append_self, h.quiet _ hquiet⟩
    · rw [Function.update_of_ne ho] at hbusy
      rw [errandsOn_append_of_ne fun hd => hbusy (hquiet other hd.symm)]
      exact h.begun other hbusy

theorem read (h : Tracks retention errand start entered ingested turnstile session progress)
    (hp : progress task = .reading) (ev : session.stores.Evolves .apart [] session'.stores) :
    Tracks retention errand start entered ingested turnstile session' (Function.update progress
      task (.writing (History.recordsOf (session.history? (errand task).device)))) := by
  have hsame := Errand.history?_of_nil ev
  have hbusy (other : String) : Function.update progress task
      (.writing (History.recordsOf (session.history? (errand task).device))) other = .idle ↔
      progress other = .idle := by
    by_cases ho : other = task
    · rw [ho, Function.update_self, hp]
      exact iff_of_false nofun nofun
    · rw [Function.update_of_ne ho]
  refine {
    sound := h.sound
    isFaulty_iff := ev.isFaulty_iff.trans h.isFaulty_iff
    device_eq := h.device_eq
    holds := fun other ho => h.holds other (mt (hbusy other).mpr ho)
    history?_eq := fun device => (hsame device).trans (h.history?_eq device)
    fresh := ?_
    quiet := fun device hidle => h.quiet device fun other ho => (hbusy other).mp (hidle other ho)
    begun := fun other ho => h.begun other (mt (hbusy other).mpr ho) }
  intro other records hwriting
  rw [hsame]
  by_cases ho : other = task
  · rw [ho, Function.update_self] at hwriting
    cases hwriting
    rw [ho]
  · rw [Function.update_of_ne ho] at hwriting
    exact h.fresh other records hwriting

/-- A task is through with its errand: its ingestion has succeeded, or it has changed nothing. -/
theorem finish (h : Tracks retention errand start entered ingested turnstile session progress)
    (hbusy : progress task ≠ .idle) {ingested' : List String}
    (hfaulty : session'.stores.IsFaulty ↔ session.stores.IsFaulty)
    (hself : session'.history? (errand task).device =
      (errandsOn errand (errand task).device ingested').foldl (Errand.after retention)
        (start.history? (errand task).device))
    (hcovers : ∀ earlier,
      Covers retention start (errandsOn errand (errand task).device ingested) earlier →
      Covers retention start (errandsOn errand (errand task).device ingested')
        (earlier ++ [errand task]))
    (hother : ∀ device, (errand task).device ≠ device →
      session'.history? device = session.history? device ∧
      errandsOn errand device ingested' = errandsOn errand device ingested) :
    Tracks retention errand start entered ingested' turnstile session'
      (Function.update progress task .idle) := by
  have hne {other : String} (ho : Function.update progress task .idle other ≠ .idle) :
      other ≠ task ∧ progress other ≠ .idle := by
    have hne : other ≠ task := by
      rintro rfl
      exact ho (Function.update_self ..)
    rw [Function.update_of_ne hne] at ho
    exact ⟨hne, ho⟩
  -- whoever else is at work is so on another history
  have hforeign {other : String} (ho : other ≠ task) (hb : progress other ≠ .idle) :
      (errand task).device ≠ (errand other).device :=
    fun hd => ho (h.eq_of_busy hbusy hb hd).symm
  refine {
    sound := h.sound
    isFaulty_iff := hfaulty.trans h.isFaulty_iff
    device_eq := h.device_eq
    holds := fun other ho => h.holds other (hne ho).2
    history?_eq := ?_
    fresh := ?_
    quiet := ?_
    begun := ?_ }
  · intro device
    by_cases hd : (errand task).device = device
    · subst hd
      exact hself
    · rw [(hother device hd).1, (hother device hd).2]
      exact h.history?_eq device
  · intro other records hwriting
    obtain ⟨ho, hwriting⟩ := writing_of_update (by simp) hwriting
    rw [(hother _ (hforeign ho (by rw [hwriting]; exact nofun))).1]
    exact h.fresh other records hwriting
  · intro device hidle
    by_cases hd : (errand task).device = device
    · subst hd
      obtain ⟨earlier, hon, hearlier⟩ := h.begun task hbusy
      rw [hon]
      exact hcovers earlier hearlier
    · rw [(hother device hd).2]
      refine h.quiet device ?_
      intro other ho
      have hne : other ≠ task := fun he => hd (he ▸ ho)
      rw [← hidle other ho, Function.update_of_ne hne]
  · intro other ho
    obtain ⟨ho, hb⟩ := hne ho
    rw [(hother _ (hforeign ho hb)).2]
    exact h.begun other hb

/-- A call that fails, or an errand that the calendar forbids, changes nothing. -/
theorem miss (h : Tracks retention errand start entered ingested turnstile session progress)
    (hbusy : progress task ≠ .idle) (ev : session.stores.Evolves .apart [] session'.stores)
    (hwhy : session.stores.IsFaulty ∨ (errand task).now.sub? retention = none) :
    Tracks retention errand start entered ingested turnstile session'
      (Function.update progress task .idle) := by
  have hsame := Errand.history?_of_nil ev
  refine h.finish hbusy ev.isFaulty_iff ((hsame _).trans (h.history?_eq _)) ?_ ?_
  · intro earlier hearlier
    exact hearlier.append_right (hwhy.imp_left h.isFaulty_iff.mp)
  · intro device _
    exact ⟨hsame device, rfl⟩

theorem write (h : Tracks retention errand start entered ingested turnstile session progress)
    {records : List Json} (hp : progress task = .writing records) {horizon : Instant}
    (hs : (errand task).now.sub? retention = some horizon)
    (ev : session.stores.Evolves .apart [.put (Key.history (errand task).device)
      (.array ((errand task).kept horizon records))] session'.stores) :
    Tracks retention errand start entered (ingested ++ [task]) turnstile session'
      (Function.update progress task .idle) := by
  have hput := Errand.history?_of_put ev
  refine h.finish (by rw [hp]; exact nofun) ev.isFaulty_iff ?_ ?_ ?_
  · -- the records that were read are those that the errands before have left
    rw [hput, if_pos rfl, errandsOn_append_self, List.foldl_append, ← h.history?_eq,
      h.fresh task records hp, List.foldl_cons, List.foldl_nil, Errand.after, hs]
  · intro earlier hearlier
    rw [errandsOn_append_self]
    exact hearlier.append _
  · intro device hd
    rw [hput, if_neg hd]
    exact ⟨rfl, errandsOn_append_of_ne hd⟩

end Tracks

def IsTracked (retention : Span) (errand : String → Errand) (start : Session Memory)
    (entered : List String) (c : Concourse) : Prop :=
  Tracks retention errand start entered c.ingested c.turnstile c.session c.progress

variable {c c' : Concourse}

theorem isTracked_opened : (opened start).IsTracked retention errand start [] where
  sound := Turnstile.isSound_empty
  isFaulty_iff := Iff.rfl
  device_eq := nofun
  holds _ hbusy := absurd rfl hbusy
  history?_eq _ := rfl
  fresh := nofun
  quiet _ _ := ⟨List.Sublist.refl _, fun _ _ => rfl⟩
  begun _ hbusy := absurd rfl hbusy

theorem IsTracked.read (h : c.IsTracked retention errand start entered)
    (hstep : c.next? retention errand (.read task) = some c') :
    c'.IsTracked retention errand start entered := by
  rw [next?] at hstep
  split at hstep
  · next hp =>
    obtain ⟨fx, hr, ev⟩ := (errand task).load_responds c.session
    rcases hran : (errand task).load.onSession c.session with ⟨r, session⟩
    rw [hran] at hr ev hstep
    have hbusy : c.progress task ≠ .idle := by rw [hp]; exact nofun
    cases hr with
    | answered =>
      cases hstep
      exact Tracks.read h hp ev
    | failed cause hm | unanswered hm =>
      cases hstep
      exact Tracks.miss h hbusy ev (.inl hm)
  · cases hstep

theorem IsTracked.write (h : c.IsTracked retention errand start entered)
    (hstep : c.next? retention errand (.write task) = some c') :
    c'.IsTracked retention errand start entered := by
  rw [next?] at hstep
  split at hstep
  · next records hp =>
    obtain ⟨fx, hr, ev⟩ := (errand task).revise_behaves retention records c.session
    rcases hran : ((errand task).revise retention records).onSession c.session with ⟨r, session⟩
    rw [hran] at hr ev hstep
    have hbusy : c.progress task ≠ .idle := by rw [hp]; exact nofun
    cases hr with
    | kept hs =>
      cases hstep
      exact Tracks.write h hp hs ev
    | offCalendar hs =>
      cases hstep
      exact Tracks.miss h hbusy ev (.inr hs)
    | missed stop hm =>
      cases hstep
      exact Tracks.miss h hbusy ev (.inl hm)
  · cases hstep

theorem IsTracked.next (h : c.IsTracked retention errand start entered) {step : Step}
    (hstep : c.next? retention errand step = some c') :
    c'.IsTracked retention errand start (entered ++ step.entering?.toList) := by
  cases step with
  | ask task =>
    obtain ⟨turnstile, hm, rfl⟩ := Option.map_eq_some_iff.mp hstep
    simp only [Step.entering?, Option.toList_none, List.append_nil]
    refine Tracks.turn h hm ?_ nofun
    rintro _ _ ⟨⟩
    rfl
  | enter task =>
    obtain ⟨turnstile, hm, rfl⟩ := Option.map_eq_some_iff.mp hstep
    exact Tracks.enter h hm
  | read task =>
    simp only [Step.entering?, Option.toList_none, List.append_nil]
    exact h.read hstep
  | write task =>
    simp only [Step.entering?, Option.toList_none, List.append_nil]
    exact h.write hstep
  | unlock task =>
    simp only [Step.entering?, Option.toList_none, List.append_nil]
    rw [next?] at hstep
    split at hstep
    · next hp =>
      obtain ⟨turnstile, hm, rfl⟩ := Option.map_eq_some_iff.mp hstep
      refine Tracks.turn h hm nofun ?_
      rintro _ ⟨⟩
      exact hp
    · cases hstep
  | leave task =>
    obtain ⟨turnstile, hm, rfl⟩ := Option.map_eq_some_iff.mp hstep
    simp only [Step.entering?, Option.toList_none, List.append_nil]
    exact Tracks.turn h hm nofun nofun

theorem isTracked_of_steps {steps : List Step} (h : c.IsTracked retention errand start entered)
    (hrun : steps.foldlM (next? retention errand) c = some c') :
    c'.IsTracked retention errand start (entered ++ steps.filterMap Step.entering?) := by
  induction steps generalizing entered c with
  | nil =>
    cases hrun
    rwa [List.filterMap_nil, List.append_nil]
  | cons step rest ih =>
    obtain ⟨between, hstep, hrest⟩ := Option.bind_eq_some_iff.mp hrun
    rw [filterMap_cons_eq_append, ← List.append_assoc]
    exact ih (h.next hstep) hrest

/-- After any steps of any tasks, the history of a device on which nobody has a turn is what the
errands on it that succeeded make one after the other, in the order in which their tasks got their
turns. Without faults it is what all errands on it make in this order. -/
theorem history?_of_steps {steps : List Step}
    (hrun : steps.foldlM (next? retention errand) (opened start) = some c)
    (hfree : ∀ k ∈ c.turnstile.tickets, k.device = device → k.stage ≠ .holding) :
    let all := errandsOn errand device (steps.filterMap Step.entering?)
    let done := errandsOn errand device c.ingested
    done.Sublist all ∧
    (∀ alone : Session Memory, ¬ alone.stores.IsFaulty →
      alone.history? device = start.history? device →
      c.session.history? device = (Errand.ingestAll retention done alone).history? device) ∧
    (¬ start.stores.IsFaulty →
      c.session.history? device = (Errand.ingestAll retention all start).history? device) := by
  intro all done
  have h := isTracked_of_steps isTracked_opened hrun
  rw [List.nil_append] at h
  have hcovers : Covers retention start done all := by
    refine h.quiet device ?_
    intro task hd
    by_contra hbusy
    obtain ⟨k, hk, rfl, hs⟩ := h.holds task hbusy
    exact hfree k hk ((h.device_eq k hk).trans hd) hs
  refine ⟨hcovers.sublist, ?_, ?_⟩
  · intro alone halone hsame
    rw [Errand.history?_ingestAll (fun e => device_of_mem_errandsOn) halone, hsame]
    exact h.history?_eq device
  · intro hs
    rw [Errand.history?_ingestAll (fun e => device_of_mem_errandsOn) hs, ← hcovers.foldl_eq hs]
    exact h.history?_eq device

/-- Errands of two tasks on one device and of a third one on another. -/
def sampleErrand (task : String) : Errand :=
  if task = "ann" then ⟨"boiler", History.levelAt 0, (History.levelAt 0).timestamp⟩
  else if task = "bob" then ⟨"boiler", History.levelAt 60, (History.levelAt 60).timestamp⟩
  else ⟨"pump", History.levelAt 30, (History.levelAt 30).timestamp⟩

/-- While one task stands between reading and writing, others ask and read. -/
def sampleSteps : List Step := [
  .ask "ann", .enter "ann", .ask "bob", .read "ann", .ask "cid", .enter "cid", .read "cid",
  .write "ann", .unlock "ann", .enter "bob", .leave "ann", .read "bob", .write "cid",
  .write "bob", .unlock "cid", .unlock "bob", .leave "bob", .leave "cid"]

theorem history?_of_sampleSteps :
    ∃ c, sampleSteps.foldlM (next? (.ofSeconds 300) sampleErrand)
        (opened { stores := Memory.empty, elapsed := 0, deadline := none }) = some c ∧
      (Reading.ofRecords (History.recordsOf (c.session.history? "boiler"))).map
        Reading.timestamp = [(History.levelAt 0).timestamp, (History.levelAt 60).timestamp] ∧
      (Reading.ofRecords (History.recordsOf (c.session.history? "pump"))).map
        Reading.timestamp = [(History.levelAt 30).timestamp] := by
  have hsome : (sampleSteps.foldlM (next? (.ofSeconds 300) sampleErrand)
      (opened { stores := Memory.empty, elapsed := 0, deadline := none })).map
        (fun c => c.turnstile.tickets) = some [] := by decide +kernel
  obtain ⟨c, hrun, htickets⟩ := Option.map_eq_some_iff.mp hsome
  have sound : ¬ ({ stores := Memory.empty, elapsed := 0, deadline := none } :
      Session Memory).stores.IsFaulty := fun ⟨_, hn⟩ => hn rfl
  have hnobody : ∀ k ∈ c.turnstile.tickets, k.stage ≠ .holding := by
    rw [htickets]
    exact nofun
  refine ⟨c, hrun, ?_, ?_⟩
  · rw [(history?_of_steps hrun fun k hk _ => hnobody k hk).2.2 sound]
    decide +kernel
  · rw [(history?_of_steps hrun fun k hk _ => hnobody k hk).2.2 sound]
    decide +kernel

end Concourse

end TriggerWatch
