import Mathlib.Data.List.Nodup
import Mathlib.Data.String.Basic
import TriggerWatch.Dict

/-!
# Dictionaries are sorted

The keys of a dictionary stand in strictly ascending order, so each of them is bound once. What
binds and removes keys keeps this order, and a list of bindings in this order is a dictionary as it
stands.

## Main definitions

- `Dict.IsSorted` — the keys stand in ascending order

## Main statements

- `Dict.isSorted_insert`, `Dict.isSorted_erase` — the operations keep the order
- `Dict.nodup_keys` — each key is bound once
- `Dict.ofList_of_isSorted` — a sorted list of bindings is the dictionary of these bindings
- `Dict.ofList_of_perm` — the order of bindings does not matter
- `Dict.get?_foldl_extend` — of several dictionaries the last one that binds a key wins
-/

namespace TriggerWatch.Dict

variable {α : Type} {d : Dict α} {key : String} {value : α}

def IsSorted (d : Dict α) : Prop := d.keys.Pairwise (· < ·)

theorem isSorted_nil : IsSorted ([] : Dict α) := List.Pairwise.nil

theorem mem_keys_iff : key ∈ d.keys ↔ ∃ value, d.get? key = some value := by
  induction d with
  | nil => simp [keys]
  | cons p rest ih =>
    obtain ⟨k, v⟩ := p
    have hkeys : keys ((k, v) :: rest) = k :: keys rest := rfl
    rw [hkeys, List.mem_cons, ih, get?_cons]
    by_cases hk : k = key
    · simp [hk]
    · simp [hk, Ne.symm hk]

theorem mem_keys_insert {other : String} :
    other ∈ (d.insert key value).keys ↔ other = key ∨ other ∈ d.keys := by
  rw [mem_keys_iff, mem_keys_iff, get?_insert]
  by_cases hk : key = other
  · simp [hk]
  · simp [hk, Ne.symm hk]

theorem isSorted_insert (h : d.IsSorted) (key : String) (value : α) :
    (d.insert key value).IsSorted := by
  induction d with
  | nil => exact List.pairwise_singleton _ _
  | cons p rest ih =>
    obtain ⟨k, v⟩ := p
    obtain ⟨hlt, hrest⟩ := List.pairwise_cons.mp h
    unfold insert
    split
    · next hk =>
      subst hk
      exact List.pairwise_cons.mpr ⟨hlt, hrest⟩
    · next hk =>
      split
      · next hlt' =>
        refine List.pairwise_cons.mpr ⟨?_, h⟩
        intro other hother
        rcases List.mem_cons.mp hother with rfl | hother
        · exact hlt'
        · exact String.lt_trans hlt' (hlt other hother)
      · next hlt' =>
        refine List.pairwise_cons.mpr ⟨?_, ih hrest⟩
        intro other hother
        rcases mem_keys_insert.mp hother with rfl | hother
        · exact ((lt_trichotomy other k).resolve_left hlt').resolve_left (Ne.symm hk)
        · exact hlt other hother

theorem isSorted_insertAll (h : d.IsSorted) (pairs : List (String × α)) :
    (d.insertAll pairs).IsSorted := by
  induction pairs generalizing d with
  | nil => exact h
  | cons p rest ih => exact ih (isSorted_insert h p.1 p.2)

theorem isSorted_ofList (pairs : List (String × α)) : (ofList pairs).IsSorted :=
  isSorted_insertAll isSorted_nil pairs

theorem isSorted_extend (h : d.IsSorted) (e : Dict α) : (d.extend e).IsSorted :=
  isSorted_insertAll h e

theorem isSorted_erase (h : d.IsSorted) (key : String) : (d.erase key).IsSorted :=
  h.sublist (List.filter_sublist.map Prod.fst)

@[simp] theorem get?_append (xs ys : Dict α) (key : String) :
    get? (xs ++ ys) key = (get? xs key).or (get? ys key) := by
  induction xs with
  | nil => rfl
  | cons p rest ih =>
    obtain ⟨k, v⟩ := p
    rw [List.cons_append, get?_cons, get?_cons, ih]
    split <;> rfl

/-- The last pair of a key wins. -/
theorem get?_ofList (pairs : List (String × α)) (key : String) :
    get? (ofList pairs) key = get? pairs.reverse key := by
  rw [ofList, get?_insertAll, get?_nil, Option.or_none]

theorem nodup_keys (h : d.IsSorted) : d.keys.Nodup :=
  h.imp fun {a b} (hlt : a < b) (he : a = b) => String.lt_irrefl b (he ▸ hlt)

theorem mem_insert {p : String × α} (h : p ∈ d.insert key value) : p = (key, value) ∨ p ∈ d := by
  induction d with
  | nil => exact .inl (List.mem_singleton.mp h)
  | cons q rest ih =>
    obtain ⟨k, v⟩ := q
    unfold insert at h
    split at h
    · exact (List.mem_cons.mp h).imp_right (List.mem_cons_of_mem _)
    · split at h
      · exact List.mem_cons.mp h
      · rcases List.mem_cons.mp h with rfl | h
        · exact .inr List.mem_cons_self
        · exact (ih h).imp_right (List.mem_cons_of_mem _)

theorem mem_insertAll {pairs : List (String × α)} {p : String × α} (h : p ∈ d.insertAll pairs) :
    p ∈ pairs ∨ p ∈ d := by
  induction pairs generalizing d with
  | nil => exact .inr h
  | cons q rest ih =>
    rcases ih (d := d.insert q.1 q.2) h with h | h
    · exact .inl (List.mem_cons_of_mem _ h)
    · refine (mem_insert h).imp_left ?_
      rintro rfl
      exact List.mem_cons_self

theorem mem_of_mem_ofList {pairs : List (String × α)} {p : String × α} (h : p ∈ ofList pairs) :
    p ∈ pairs :=
  (mem_insertAll h).resolve_right List.not_mem_nil

/-! ### Sorted lists are dictionaries -/

/-- A key larger than all others is bound at the end. -/
theorem insert_of_lt (h : ∀ other ∈ d.keys, other < key) :
    d.insert key value = d ++ [(key, value)] := by
  induction d with
  | nil => rfl
  | cons p rest ih =>
    obtain ⟨k, v⟩ := p
    have hk : k < key := h k List.mem_cons_self
    have hne : k ≠ key := fun he => String.lt_irrefl key (he ▸ hk)
    have hrest := ih fun other ho => h other (List.mem_cons_of_mem _ ho)
    rw [insert, if_neg hne, if_neg (String.lt_asymm hk), hrest]
    rfl

theorem insertAll_of_isSorted (pairs : Dict α) (h : IsSorted (d ++ pairs)) :
    d.insertAll pairs = d ++ pairs := by
  induction pairs generalizing d with
  | nil => exact (List.append_nil d).symm
  | cons p rest ih =>
    have hkeys : keys (d ++ p :: rest) = d.keys ++ p.1 :: keys rest := List.map_append
    have hlt : ∀ other ∈ d.keys, other < p.1 := by
      rw [IsSorted, hkeys] at h
      intro other hother
      exact (List.pairwise_append.mp h).2.2 other hother p.1 List.mem_cons_self
    have hstep : d.insert p.1 p.2 = d ++ [p] := insert_of_lt hlt
    have hrest : IsSorted ((d ++ [p]) ++ rest) := by rwa [List.append_assoc]
    show insertAll (d.insert p.1 p.2) rest = _
    rw [hstep, ih hrest, List.append_assoc]
    rfl

/-- A sorted list of bindings is the dictionary of these bindings. -/
theorem ofList_of_isSorted (h : d.IsSorted) : ofList d = d := insertAll_of_isSorted d h

/-- A sorted dictionary on top of another one wins. -/
theorem get?_extend_of_isSorted {e : Dict α} (h : e.IsSorted) (d : Dict α) (key : String) :
    (d.extend e).get? key = (e.get? key).or (d.get? key) := by
  rw [get?_extend, ← get?_ofList, ofList_of_isSorted h]

/-- Of sorted dictionaries on top of each other the last one that binds a key wins. -/
theorem get?_foldl_extend {es : List (Dict α)} (h : ∀ e ∈ es, e.IsSorted) (d : Dict α)
    (key : String) :
    (es.foldl extend d).get? key = (es.reverse.findSome? fun e => e.get? key).or (d.get? key) := by
  induction es generalizing d with
  | nil => rfl
  | cons e rest ih =>
    have hrest := ih (fun e' he => h e' (List.mem_cons_of_mem _ he)) (d.extend e)
    have he := get?_extend_of_isSorted (h e List.mem_cons_self) d key
    have hone : [e].findSome? (fun e => e.get? key) = e.get? key := by
      rw [List.findSome?_cons]
      cases e.get? key <;> rfl
    rw [List.foldl_cons, hrest, he, List.reverse_cons, List.findSome?_append, hone,
      Option.or_assoc]

/-! ### Bindings in any order -/

theorem get?_eq_some_iff_mem (h : d.keys.Nodup) : d.get? key = some value ↔ (key, value) ∈ d := by
  induction d with
  | nil => simp
  | cons p rest ih =>
    obtain ⟨k, v⟩ := p
    obtain ⟨hk, hrest⟩ := List.nodup_cons.mp h
    rw [get?_cons, List.mem_cons, Prod.mk.injEq]
    by_cases he : k = key
    · subst he
      have hmem : (k, value) ∉ rest := fun hm => hk (List.mem_map.mpr ⟨_, hm, rfl⟩)
      simp [hmem, eq_comm]
    · simp [he, Ne.symm he, ih hrest]

/-- A sorted dictionary is told by the values of its keys. -/
theorem eq_of_get?_eq {e : Dict α} (hd : d.IsSorted) (he : e.IsSorted)
    (h : ∀ key, d.get? key = e.get? key) : d = e := by
  have hnodup {d : Dict α} (hd : d.IsSorted) : d.Nodup := List.Nodup.of_map Prod.fst (nodup_keys hd)
  have hperm : d.Perm e := by
    rw [List.perm_ext_iff_of_nodup (hnodup hd) (hnodup he)]
    rintro ⟨key, value⟩
    rw [← get?_eq_some_iff_mem (nodup_keys hd), ← get?_eq_some_iff_mem (nodup_keys he), h]
  refine hperm.eq_of_pairwise ?_ (List.pairwise_map.mp hd) (List.pairwise_map.mp he)
  intro p q _ _ hpq hqp
  exact absurd hqp (String.lt_asymm hpq)

/-- The bindings of a dictionary make it up in any order. -/
theorem ofList_of_perm {pairs : List (String × α)} (h : d.IsSorted) (hp : pairs.Perm d) :
    ofList pairs = d := by
  have hkeys : (keys pairs.reverse).Nodup := by
    rw [keys, ((List.reverse_perm pairs).trans hp).map Prod.fst |>.nodup_iff]
    exact nodup_keys h
  refine eq_of_get?_eq (isSorted_ofList pairs) h fun key => Option.ext fun value => ?_
  rw [get?_ofList, get?_eq_some_iff_mem hkeys, get?_eq_some_iff_mem (nodup_keys h),
    List.mem_reverse, hp.mem_iff]

/-- A dictionary is extended by bindings or by the dictionary that they make up. -/
theorem extend_ofList (h : d.IsSorted) (pairs : List (String × α)) :
    d.extend (ofList pairs) = d.insertAll pairs := by
  refine eq_of_get?_eq (isSorted_extend h _) (isSorted_insertAll h pairs) fun key => ?_
  rw [get?_extend_of_isSorted (isSorted_ofList pairs), get?_ofList, get?_insertAll]

end TriggerWatch.Dict
