import TriggerWatch.Proofs.Episodes

/-!
# Which calls an action makes

The link keeps a record of every call over it, also of one that is refused, answered late or not
answered. An action makes certain calls only if each of its runs adds no other ones to the record.

## Main definitions

- `Dials` — an action makes certain calls only
- `Memory.Call.IsOn` — a call on the document under a key
- `Documents.IsDirect` — a document is fetched and put by calls on this document
- `Evaluator.trailKeys` — the key of the trail of a submission, if it names one
- `Episode.calls` — the calls made in an episode
- `Episode.KeepsTo` — an episode has to do with certain documents only

## Main statements

- `Dials.bind` — the rule for actions in sequence
- `Evaluator.isDirect_of_inMemory?` — the documents of an evaluator
- `History.ingest_dials`, `Trail.record_dials` — the steps that make calls on one document
- `Evaluator.keepsTo_episode` — what an episode has to do with, by its calls and its changes
-/

namespace TriggerWatch

open Memory (Backing Call Change)

variable {ε ε' α β : Type} {P Q : Call → Prop}

/-- Every run of an action adds only calls with a property to the record of the link. -/
def Dials (P : Call → Prop) (a : Action Memory ε α) : Prop :=
  ∀ s, ∃ calls, (∀ call ∈ calls, P call) ∧
    (a.onSession s).2.stores.link.calls = s.stores.link.calls ++ calls

/-! ### Rules -/

namespace Dials

theorem mono {a : Action Memory ε α} (h : Dials P a) (hpq : ∀ call, P call → Q call) :
    Dials Q a := by
  intro s
  obtain ⟨calls, hcalls, he⟩ := h s
  exact ⟨calls, fun call hc => hpq call (hcalls call hc), he⟩

/-- An action that leaves the link alone makes no calls. -/
theorem still {a : Action Memory ε α}
    (h : ∀ s, (a.onSession s).2.stores.link.calls = s.stores.link.calls) : Dials P a :=
  fun s => ⟨[], List.forall_mem_nil _, by rw [h, List.append_nil]⟩

theorem ofExcept (r : Except ε α) : Dials P (Action.ofExcept r) := by
  cases r <;> exact still fun _ => rfl

theorem inCalendar (x : Option α) : Dials P (Action.inCalendar x : Action Memory ε α) := by
  cases x <;> exact still fun _ => rfl

/-- The second action needs to be looked at only for values that the first one can end with. -/
theorem bind {a : Action Memory ε α} {f : α → Action Memory ε β} (ha : Dials P a)
    (hf : ∀ s x, (a.onSession s).1 = .ok x → Dials P (f x)) : Dials P (a >>= f) := by
  intro s
  obtain ⟨calls, hcalls, hmade⟩ := ha s
  rcases h : a.onSession s with ⟨stop | x, t⟩
  · rw [h] at hmade
    rw [Action.onSession_bind_error h]
    exact ⟨calls, hcalls, hmade⟩
  · rw [h] at hmade
    obtain ⟨more, hmore, he⟩ := hf s x (by rw [h]) t
    rw [Action.onSession_bind_ok h]
    refine ⟨calls ++ more, List.forall_mem_append.mpr ⟨hcalls, hmore⟩, ?_⟩
    rw [he, hmade, List.append_assoc]

theorem attempt {a : Action Memory ε α} (ha : Dials P a) :
    Dials P (a.attempt : Action Memory ε' (Except ε α)) := by
  intro s
  rw [Action.onSession_attempt]
  exact ha s

theorem mapFailure {a : Action Memory ε α} (f : ε → ε') (ha : Dials P a) :
    Dials P (a.mapFailure f) := by
  intro s
  rw [Action.onSession_mapFailure]
  exact ha s

theorem within {a : Action Memory ε α} (milliseconds : Nat) (late : ε) (ha : Dials P a) :
    Dials P (a.within milliseconds late) := by
  intro s
  rw [(Action.onSession_within milliseconds late a s).2]
  exact ha { s with deadline := some (s.elapsed + milliseconds) }

end Dials

/-! ### Store calls -/

/-- A call on the document under a key. -/
def Memory.Call.IsOn (key : String) (call : Call) : Prop := call = .get key ∨ call = .put key

/-- What a call meets on its way is not on the record. -/
theorem Link.meet_dials {refused : String → ε} (fault : Option Fault) :
    Dials P (meet refused fault : Action Memory ε Unit) := by
  rcases fault with _ | _ | _ | milliseconds
  · exact .still fun _ => rfl
  · exact .still fun _ => rfl
  · exact .still fun _ => rfl
  · refine .still fun s => ?_
    simp only [meet, Action.wait, Action.ofStep, Action.onSession]
    split
    · rfl
    · split <;> rfl

theorem Memory.reach_dials {call : Call} (h : P call) : Dials P (reach call) := by
  intro s
  have hmeet : Dials P (Link.meet StoreFailure.backend s.stores.link.next) := Link.meet_dials _
  obtain ⟨calls, hcalls, he⟩ :=
    hmeet { s with stores := { s.stores with link := s.stores.link.record call } }
  refine ⟨call :: calls, List.forall_mem_cons.mpr ⟨h, hcalls⟩, he.trans ?_⟩
  exact List.append_assoc _ [call] calls

/-- A document is fetched and put by calls on this document. -/
structure Documents.IsDirect (docs : Documents Memory) : Prop where
  get : ∀ key, Dials (·.IsOn key) (docs.get key)
  put : ∀ key document, Dials (·.IsOn key) (docs.put key document)

theorem Memory.isDirect_documentStore : documentStore.IsDirect where
  get _ := (reach_dials (.inl rfl)).bind fun _ _ _ => .still fun _ => rfl
  put _ _ := (reach_dials (.inr rfl)).bind fun _ _ _ => .still fun _ => rfl

theorem Documents.IsDirect.timed {docs : Documents Memory} (h : docs.IsDirect)
    (milliseconds : Nat) : (docs.timed milliseconds).IsDirect where
  get key := (h.get key).within _ _
  put key document := (h.put key document).within _ _

theorem Evaluator.isDirect_of_inMemory? {b : Backing} {settings : Settings.Evaluation}
    {e : Evaluator Memory} (h : inMemory? b settings = some e) : e.documents.IsDirect := by
  obtain ⟨retention, minCooldown, rfl⟩ := eq_of_inMemory? h
  exact Memory.isDirect_documentStore.timed _

/-! ### Steps of an evaluation -/

variable {docs : Documents Memory}

theorem History.ingest_dials (hd : docs.IsDirect) (retention : Span) (device : String)
    (reading : Reading) (now : Instant) :
    Dials (·.IsOn (Key.history device)) (ingest docs retention device reading now) :=
  ((hd.get _).bind fun _ _ _ => .still fun _ => rfl).bind fun _ _ _ =>
    (Dials.inCalendar _).bind fun _ _ _ =>
      (hd.put _ _).bind fun _ _ _ => .still fun _ => rfl

theorem Trail.record_dials (hd : docs.IsDirect) (capacity : Nat) (device trigger : String)
    (entry : Entry) :
    Dials (·.IsOn (Key.trail device trigger)) (record docs capacity device trigger entry) :=
  (hd.get _).bind fun _ _ _ => hd.put _ _

/-- The key of the trail of a submission, if it names one. -/
def Evaluator.trailKeys (s : Submission) : List String :=
  if hasTrail s then [Key.trail s.device s.trigger] else []

theorem Evaluator.enterTrail_dials {e : Evaluator Memory} (hd : e.documents.IsDirect)
    (s : Submission) (result : Except EvaluationFailure Outcome) (recorded : Instant) :
    Dials (fun call => ∃ key ∈ trailKeys s, call.IsOn key) (e.enterTrail s result recorded) := by
  rw [enterTrail, trailKeys]
  split
  · exact (((Trail.record_dials hd _ _ _ _).mono fun _ hc =>
      ⟨_, List.mem_singleton_self _, hc⟩).attempt).bind fun _ _ _ => .ofExcept _
  · exact .ofExcept result

theorem Evaluator.Enters.exists_trailKey {e : Evaluator Memory} {s : Submission}
    {recorded : Instant} {m : Memory} {gx : List Change}
    {ran r : Except (Stop EvaluationFailure) Outcome} (h : Enters e s recorded ran m r gx) :
    ∀ c ∈ gx, ∃ key ∈ trailKeys s, ∃ document, c = .put key document := by
  cases h with
  | entered hs | enteredFailure hs =>
    intro c hc
    rw [trailKeys, if_pos hs]
    exact ⟨_, List.mem_singleton_self _, _, List.mem_singleton.mp hc⟩
  | _ => nofun

theorem Evaluator.shadow_not_mem_trailKeys (s : Submission) (device : String) :
    Key.shadow device ∉ trailKeys s := by
  rw [trailKeys]
  split
  · exact fun h => Key.trail_ne_shadow _ _ _ (List.mem_singleton.mp h).symm
  · exact List.not_mem_nil

/-! ### Episodes -/

/-- The calls made in an episode, the first one first. -/
def Episode.calls (ep : Episode) : List Call :=
  ep.after.stores.link.calls.drop ep.before.stores.link.calls.length

/-- The calls of an episode are those that its evaluation makes. -/
theorem Evaluator.calls_episode {e : Evaluator Memory} {request : Request}
    (h : Dials P (e.evaluate request.submission request.clock)) (session : Session Memory) :
    ∀ call ∈ (e.episode session request).calls, P call := by
  obtain ⟨calls, hcalls, he⟩ := h session
  have hmade : (e.episode session request).after.stores.link.calls =
      session.stores.link.calls ++ calls := he
  rwa [Episode.calls, hmade, show (e.episode session request).before = session from rfl,
    List.drop_left]

/-- An episode makes calls on the documents under certain keys and changes nothing else: no other
document, no reported state, and no message is posted. -/
structure Episode.KeepsTo (b : Backing) (keys : List String) (ep : Episode) : Prop where
  calls : ∀ call ∈ ep.calls, ∃ key ∈ keys, call.IsOn key
  document? : ∀ key ∉ keys, ep.after.stores.document? key = ep.before.stores.document? key
  reported? : ∀ device, ep.after.stores.reported? b device = ep.before.stores.reported? b device
  notices : ep.after.stores.notices = ep.before.stores.notices

theorem Evaluator.keepsTo_episode {b : Backing} {e : Evaluator Memory} {request : Request}
    {session : Session Memory} {keys : List String} {fx : List Change}
    (hcalls : Dials (fun call => ∃ key ∈ keys, call.IsOn key)
      (e.evaluate request.submission request.clock))
    (ev : session.stores.Evolves b fx (e.episode session request).after.stores)
    (hfx : ∀ c ∈ fx, ∃ key ∈ keys, ∃ document, c = .put key document)
    (hshadow : ∀ device, Key.shadow device ∉ keys) :
    (e.episode session request).KeepsTo b keys := by
  have hput {key : String} (hk : key ∉ keys) (document : Json) : .put key document ∉ fx := by
    intro hmem
    obtain ⟨key', hkey', _, hc⟩ := hfx _ hmem
    exact hk ((Change.put.inj hc).1 ▸ hkey')
  have hupdate (device : String) (attributes : Dict Json) : .update device attributes ∉ fx := by
    intro hmem
    obtain ⟨_, _, _, hc⟩ := hfx _ hmem
    cases hc
  have hsilent : fx.filterMap Change.notice? = [] := by
    rw [List.filterMap_eq_nil_iff]
    intro c hc
    obtain ⟨_, _, _, rfl⟩ := hfx c hc
    rfl
  exact {
    calls := calls_episode hcalls session
    document? := fun _ hk => ev.document?_eq (hput hk)
    reported? := fun device => ev.reported?_eq (hput (hshadow device)) (hupdate device)
    notices := ev.notices_eq.trans (by rw [hsilent]; exact List.append_nil _) }

end TriggerWatch
