import Mathlib.Data.Bool.AllAny
import Mathlib.Data.List.DropRight
import TriggerWatch.Proofs.TextPieces
import TriggerWatch.Proofs.Timestamps
import TriggerWatch.Uri

/-!
# How addresses are read

A part of an address ends where the delimiter of the next one stands, so no part that is read has
this delimiter inside. This is all that is needed for the other direction: parts without the
delimiters that end them are read as they were written, one after the other.

## Main definitions

- `Uri.IsDelimited` — no part contains what would end it

## Main statements

- `Uri.isDelimited_of_ofText?` — the parts that are read are delimited
- `Uri.ofText?_of_cleaned` — how an address with an authority is cut
- `Uri.withAuthority?_eq` — how a host and a port are read after a user and a password
-/

namespace TriggerWatch

namespace Uri

/-- Tabs and line ends, which are taken out of an address. -/
def breaks : List Char := ['\t', '\n', '\x0d']

/-- No part of an address contains what would end it. -/
structure IsDelimited (u : Uri) : Prop where
  user : ∀ c ∈ ':' :: '/' :: '?' :: '#' :: breaks, c ∉ u.user
  /-- A colon or an at sign does not end a password. -/
  password : ∀ c ∈ '/' :: '?' :: '#' :: breaks, c ∉ u.password
  host : ∀ host, u.host = some host → host ≠ "" ∧ isHost host.toList = true
  port : ∀ port, u.port = some port → port ≤ 0xffff
  path : ∀ c ∈ '?' :: '#' :: breaks, c ∉ u.path
  /-- No piece of the path stands for a folder. -/
  pieces : ∀ path, u.path = '/' :: path → ∀ piece ∈ Text.split '/' path, isFolder piece = false
  query : ∀ c ∈ '#' :: breaks, c ∉ u.query

/-! ### Cuts -/

theorem upTo_of_not_mem {c : Char} {text : List Char} (h : c ∉ text) :
    upTo c text = (text, []) := by
  rw [upTo, (Text.cut?_eq_none_iff c text).mpr h, Option.getD_none]

theorem upTo_append {c : Char} {before : List Char} (h : c ∉ before) (after : List Char) :
    upTo c (before ++ c :: after) = (before, after) := by
  rw [upTo, (Text.cut?_eq_some_iff c _ before after).mpr ⟨rfl, h⟩, Option.getD_some]

/-- The part before a character does not contain it, and both parts are of the text. -/
theorem upTo_spec (c : Char) (text : List Char) :
    c ∉ (upTo c text).1 ∧ (upTo c text).1 ⊆ text ∧ (upTo c text).2 ⊆ text := by
  by_cases h : c ∈ text
  · obtain ⟨before, after, rfl, hb⟩ := List.eq_append_cons_of_mem h
    rw [upTo_append hb]
    exact ⟨hb, List.subset_append_left _ _,
      fun d hd => List.mem_append_right _ (List.mem_cons_of_mem _ hd)⟩
  · rw [upTo_of_not_mem h]
    exact ⟨h, List.Subset.refl _, List.nil_subset _⟩

theorem splitUser_of_not_mem {place : List Char} (h : '@' ∉ place) :
    splitUser place = ([], place) := by
  have hcut := (Text.cut?_eq_none_iff '@' place.reverse).mpr (by simpa using h)
  rw [splitUser, hcut]

theorem splitUser_append {place : List Char} (h : '@' ∉ place) (credentials : List Char) :
    splitUser (credentials ++ '@' :: place) = (credentials, place) := by
  have hcut : Text.cut? '@' (credentials ++ '@' :: place).reverse =
      some (place.reverse, credentials.reverse) :=
    (Text.cut?_eq_some_iff _ _ _ _).mpr ⟨by simp, by simpa using h⟩
  rw [splitUser, hcut]
  simp only [List.reverse_reverse]

theorem splitUser_fst_subset (authority : List Char) : (splitUser authority).1 ⊆ authority := by
  rw [splitUser]
  split
  · exact List.nil_subset _
  · next host user hcut =>
    intro c hc
    rw [← List.mem_reverse, ((Text.cut?_eq_some_iff _ _ _ _).mp hcut).1]
    exact List.mem_append_right _ (List.mem_cons_of_mem _ (List.mem_reverse.mp hc))

theorem port?_eq {digits : List Char} (hne : digits ≠ []) (hd : ∀ c ∈ digits, c.isDigit = true) :
    port? digits = if Decimal.natOfDigits 0 digits ≤ 0xffff then
      some (some (Decimal.natOfDigits 0 digits)) else none := by
  rw [port?, if_neg (by simpa using hne), if_neg (by simpa using hd)]
  rfl

/-- A number of at most 16 bits is read from its digits. -/
theorem port?_repr {n : Nat} (h : n ≤ 0xffff) : port? n.repr.toList = some (some n) := by
  rw [Nat.toList_repr, port?_eq Nat.toDigits_ne_nil fun c hc =>
    Nat.isDigit_of_mem_toDigits (by decide) (by decide) hc, Decimal.natOfDigits_toDigits, if_pos h]

theorem le_of_port? {digits : List Char} {n : Nat} (h : port? digits = some (some n)) :
    n ≤ 0xffff := by
  by_cases hne : digits = []
  · subst hne
    cases h
  · by_cases hd : ∀ c ∈ digits, c.isDigit = true
    · rw [port?_eq hne hd] at h
      split at h
      · next hn =>
        cases h
        exact hn
      · cases h
    · rw [port?, if_neg (by simpa using hne), if_pos (by simpa using hd)] at h
      cases h

/-! ### Paths -/

/-- Apart from an empty piece at the end, only pieces that stand for no folder are left. -/
theorem mem_resolve {past rest : List (List Char)} {piece : List Char}
    (h : piece ∈ resolve past rest) :
    piece = [] ∨ piece ∈ past ∨ piece ∈ rest ∧ isFolder piece = false := by
  induction rest generalizing past with
  | nil => exact .inr (.inl (List.mem_reverse.mp h))
  | cons next rest ih =>
    rw [resolve] at h
    by_cases hf : isFolder next = true
    · rw [if_pos hf] at h
      have hpast : (if isAbove next then past.tail else past) ⊆ past := by
        split
        · exact fun _ => List.mem_of_mem_tail
        · exact List.Subset.refl past
      have hlast : (if rest.isEmpty then [] :: if isAbove next then past.tail else past
          else if isAbove next then past.tail else past) ⊆ [] :: past := by
        split
        · exact List.cons_subset_cons [] hpast
        · exact List.subset_cons_of_subset [] hpast
      rcases ih h with hnil | hp | ⟨hr, hn⟩
      · exact .inl hnil
      · exact (List.mem_cons.mp (hlast hp)).imp_right .inl
      · exact .inr (.inr ⟨List.mem_cons_of_mem _ hr, hn⟩)
    · rw [if_neg hf] at h
      rcases ih h with hnil | hp | ⟨hr, hn⟩
      · exact .inl hnil
      · rcases List.mem_cons.mp hp with rfl | hp
        · exact .inr (.inr ⟨List.mem_cons_self, Bool.eq_false_iff.mpr hf⟩)
        · exact .inr (.inl hp)
      · exact .inr (.inr ⟨List.mem_cons_of_mem _ hr, hn⟩)

/-- A piece that is left is empty, or it is one of the path that stands for no folder. -/
theorem mem_resolve_split {path piece : List Char}
    (h : piece ∈ resolve [] (Text.split '/' path)) :
    piece ⊆ path ∧ '/' ∉ piece ∧ isFolder piece = false := by
  rcases mem_resolve h with rfl | hnil | ⟨hp, hn⟩
  · exact ⟨List.nil_subset _, List.not_mem_nil, rfl⟩
  · cases hnil
  · exact ⟨Text.subset_of_mem_split hp, (Text.intercalate_split '/' path).2 piece hp, hn⟩

theorem resolved_subset (path : List Char) : resolved path ⊆ path := by
  unfold resolved
  split
  · next path =>
    intro c hc
    rcases List.mem_cons.mp hc with rfl | hc
    · exact List.mem_cons_self
    · rcases Text.mem_of_mem_intercalate hc with rfl | ⟨piece, hpiece, hc⟩
      · exact List.mem_cons_self
      · exact List.mem_cons_of_mem _ ((mem_resolve_split hpiece).1 hc)
  · exact List.Subset.refl _

/-- No piece of a resolved path stands for a folder. -/
theorem isFolder_of_mem_resolved {path rest : List Char} (h : resolved path = '/' :: rest) :
    ∀ piece ∈ Text.split '/' rest, isFolder piece = false := by
  unfold resolved at h
  split at h
  · next path =>
    obtain ⟨-, rfl⟩ := List.cons.inj h
    intro piece hpiece
    by_cases hnil : resolve [] (Text.split '/' path) = []
    · rw [hnil] at hpiece
      rw [List.mem_singleton.mp hpiece]
      rfl
    · rw [Text.split_intercalate (fun _ hp => (mem_resolve_split hp).2.1) hnil] at hpiece
      exact (mem_resolve_split hpiece).2.2
  · next hpath => exact absurd h (hpath rest)

example : resolved "/a/./b/%2E.".toList = "/a/".toList := by decide

theorem resolve_of_forall {rest : List (List Char)} (h : ∀ piece ∈ rest, isFolder piece = false)
    (past : List (List Char)) : resolve past rest = past.reverse ++ rest := by
  induction rest generalizing past with
  | nil => rw [resolve, List.append_nil]
  | cons piece rest ih =>
    obtain ⟨hpiece, hrest⟩ := List.forall_mem_cons.mp h
    rw [resolve, if_neg (by simp [hpiece]), ih hrest, List.reverse_cons, List.append_assoc,
      List.singleton_append]

theorem resolved_eq {path : List Char}
    (h : ∀ rest, path = '/' :: rest → ∀ piece ∈ Text.split '/' rest, isFolder piece = false) :
    resolved path = path := by
  unfold resolved
  split
  · next rest =>
    rw [resolve_of_forall (h rest rfl), List.reverse_nil, List.nil_append,
      (Text.intercalate_split '/' rest).1]
  · rfl

/-! ### The parts that are read -/

theorem not_mem_cleaned (text : List Char) : ∀ c ∈ breaks, c ∉ cleaned text := by
  intro c hc hm
  have hkept := (List.mem_filter.mp hm).2
  simp only [breaks, List.mem_cons, List.not_mem_nil, or_false] at hc
  rcases hc with rfl | rfl | rfl <;> cases hkept

theorem isDelimited_of_withAuthority? {scheme : String} {authority path query : List Char} {u : Uri}
    (h : withAuthority? scheme authority path query = some u)
    (ha : ∀ c ∈ '/' :: '?' :: '#' :: breaks, c ∉ authority)
    (hp : ∀ c ∈ '?' :: '#' :: breaks, c ∉ path)
    (hf : ∀ rest, path = '/' :: rest → ∀ piece ∈ Text.split '/' rest, isFolder piece = false)
    (hq : ∀ c ∈ '#' :: breaks, c ∉ query) : u.IsDelimited := by
  obtain ⟨hcolon, huser, hpassword⟩ := upTo_spec ':' (splitUser authority).1
  have hsub := splitUser_fst_subset authority
  simp only [withAuthority?] at h
  split at h
  · cases h
  · next hhost =>
    split at h
    · cases h
    · obtain ⟨port, hport, rfl⟩ := Option.map_eq_some_iff.mp h
      refine ⟨?_, ?_, ?_, ?_, hp, hf, hq⟩
      · refine List.forall_mem_cons.mpr ⟨hcolon, ?_⟩
        exact fun c hc hm => ha c hc (hsub (huser hm))
      · exact fun c hc hm => ha c hc (hsub (hpassword hm))
      · intro host hh
        split at hh
        · cases hh
        · next hempty =>
          cases hh
          rw [String.toList_ofList]
          exact ⟨by simpa using hempty, by simpa using hhost⟩
      · rintro n rfl
        exact le_of_port? hport

theorem isDelimited_of_ofRest? {scheme : String} {rest : List Char} {u : Uri}
    (h : ofRest? scheme rest = some u) (hb : ∀ c ∈ breaks, c ∉ rest) : u.IsDelimited := by
  obtain ⟨hhash, hfront, -⟩ := upTo_spec '#' rest
  have hfront : ∀ c ∈ '#' :: breaks, c ∉ (upTo '#' rest).1 :=
    List.forall_mem_cons.mpr ⟨hhash, fun c hc hm => hb c hc (hfront hm)⟩
  obtain ⟨hmark, hplace, hquery⟩ := upTo_spec '?' (upTo '#' rest).1
  have hplace : ∀ c ∈ '?' :: '#' :: breaks, c ∉ (upTo '?' (upTo '#' rest).1).1 :=
    List.forall_mem_cons.mpr ⟨hmark, fun c hc hm => hfront c hc (hplace hm)⟩
  have hquery : ∀ c ∈ '#' :: breaks, c ∉ (upTo '?' (upTo '#' rest).1).2 :=
    fun c hc hm => hfront c hc (hquery hm)
  simp only [ofRest?] at h
  split at h
  · next place hp =>
    rw [hp] at hplace
    have hplace : ∀ c ∈ '?' :: '#' :: breaks, c ∉ place := fun c hc hm =>
      hplace c hc (List.mem_cons_of_mem _ (List.mem_cons_of_mem _ hm))
    refine isDelimited_of_withAuthority? h (List.forall_mem_cons.mpr ⟨?_, ?_⟩) ?_ ?_ hquery
    · intro hm
      simpa using List.mem_takeWhile_imp hm
    · exact fun c hc hm => hplace c hc (List.takeWhile_subset _ hm)
    · exact fun c hc hm => hplace c hc (List.dropWhile_subset _ (resolved_subset _ hm))
    · exact fun _ => isFolder_of_mem_resolved
  · cases h
    exact {
      user := fun _ _ => List.not_mem_nil
      password := fun _ _ => List.not_mem_nil
      host := by rintro _ ⟨⟩
      port := by rintro _ ⟨⟩
      path := fun c hc hm => hplace c hc (resolved_subset _ hm)
      pieces := fun _ => isFolder_of_mem_resolved
      query := hquery }

/-- The parts that are read in an address are delimited. -/
theorem isDelimited_of_ofText? {text : String} {u : Uri} (h : ofText? text = some u) :
    u.IsDelimited := by
  obtain ⟨⟨scheme, rest⟩, hcut, h⟩ := Option.bind_eq_some_iff.mp h
  split at h
  · refine isDelimited_of_ofRest? h fun c hc hm => not_mem_cleaned text.toList c hc ?_
    rw [((Text.cut?_eq_some_iff _ _ _ _).mp hcut).1]
    exact List.mem_append_right _ (List.mem_cons_of_mem _ hm)
  · cases h

/-! ### Hosts -/

/-- The characters inside brackets. -/
def isGroupChar (c : Char) : Bool := (hexDigit? c).isSome || c == '.' || c == ':'

theorem isGroupChar_of_isHexGroup {group : List Char} (h : isHexGroup group = true) :
    ∀ c ∈ group, isGroupChar c = true := by
  rw [isHexGroup, Bool.and_eq_true, List.all_eq_true] at h
  intro c hc
  rw [isGroupChar, h.2 c hc]
  rfl

theorem isGroupChar_of_isOctet {group : List Char} (h : isOctet group = true) :
    ∀ c ∈ group, isGroupChar c = true := by
  unfold isOctet at h
  rw [Bool.and_eq_true, List.all_eq_true] at h
  intro c hc
  rw [isGroupChar, hexDigit?, if_pos (h.1 c hc)]
  rfl

theorem isGroupChar_of_groupCount? {groups : List (List Char)} {n : Nat}
    (h : groupCount? groups = some n) : ∀ group ∈ groups, ∀ c ∈ group, isGroupChar c = true := by
  induction groups generalizing n with
  | nil => exact List.forall_mem_nil _
  | cons group rest ih =>
    rw [groupCount?] at h
    split at h
    · next hhex =>
      obtain ⟨m, hm, -⟩ := Option.map_eq_some_iff.mp h
      exact List.forall_mem_cons.mpr ⟨isGroupChar_of_isHexGroup hhex, ih hm⟩
    · split at h
      · next hoctets =>
        simp only [Bool.and_eq_true, List.isEmpty_iff, List.all_eq_true] at hoctets
        obtain ⟨⟨rfl, -⟩, hoctets⟩ := hoctets
        refine List.forall_mem_singleton.mpr fun c hc => ?_
        rw [← (Text.intercalate_split '.' group).1] at hc
        rcases Text.mem_of_mem_intercalate hc with rfl | ⟨octet, ho, hc⟩
        · rfl
        · exact isGroupChar_of_isOctet (hoctets octet ho) c hc
      · cases h

theorem eq_append_of_cutGap? {text before after : List Char}
    (h : cutGap? text = some (before, after)) : text = before ++ ':' :: ':' :: after := by
  induction text using cutGap?.induct generalizing before with
  | case1 rest =>
    cases h
    rfl
  | case2 c rest hne ih =>
    rw [cutGap?] at h
    · obtain ⟨⟨before', after'⟩, hcut, hp⟩ := Option.map_eq_some_iff.mp h
      cases hp
      rw [ih hcut, List.cons_append]
    · exact hne
  | case3 => cases h

/-- A text that is split into groups of such characters has no others. -/
theorem isGroupChar_of_groups {part : List Char}
    (h : ∀ group ∈ if part.isEmpty then [] else Text.split ':' part,
      ∀ c ∈ group, isGroupChar c = true) : ∀ c ∈ part, isGroupChar c = true := by
  intro c hc
  rw [if_neg (by simpa using List.ne_nil_of_mem hc)] at h
  rw [← (Text.intercalate_split ':' part).1] at hc
  rcases Text.mem_of_mem_intercalate hc with rfl | ⟨group, hg, hc⟩
  · rfl
  · exact h group hg c hc

theorem isGroupChar_of_isGroupedAddress {text : List Char} (h : isGroupedAddress text = true) :
    ∀ c ∈ text, isGroupChar c = true := by
  rw [isGroupedAddress] at h
  split at h
  · exact isGroupChar_of_groups (isGroupChar_of_groupCount? (beq_iff_eq.mp h))
  · next before after hcut =>
    rw [Bool.and_eq_true, List.all_eq_true, Option.any_eq_true] at h
    obtain ⟨hbefore, n, hafter, -⟩ := h
    rw [eq_append_of_cutGap? hcut]
    refine List.forall_mem_append.mpr ⟨?_, ?_⟩
    · exact isGroupChar_of_groups fun group hg => isGroupChar_of_isHexGroup (hbefore group hg)
    · refine List.forall_mem_cons.mpr ⟨rfl, List.forall_mem_cons.mpr ⟨rfl, ?_⟩⟩
      exact isGroupChar_of_groups (isGroupChar_of_groupCount? hafter)

/-- A host is free of delimiters, or it is a literal in brackets. -/
theorem isHost_cases {host : List Char} (h : isHost host = true) :
    (∀ c ∈ hostDelimiters, c ∉ host) ∨
      ∃ text, host = '[' :: (text ++ [']']) ∧ ∀ c ∈ text, isGroupChar c = true := by
  unfold isHost at h
  split at h
  · next rest =>
    rw [Bool.and_eq_true, beq_iff_eq] at h
    refine .inr ⟨rest.dropLast, ?_, isGroupChar_of_isGroupedAddress h.2⟩
    rw [List.dropLast_append_getLast? _ h.1]
  · refine .inl fun c hc hm => ?_
    simp only [Bool.not_eq_true', List.any_eq_false, List.contains_eq_mem, decide_eq_true_eq] at h
    exact h c hm hc

/-- What ends an authority or the user in front of it does not stand in a host. -/
theorem not_mem_host {host : List Char} (h : isHost host = true) :
    ∀ c ∈ '@' :: '/' :: '?' :: '#' :: breaks, c ∉ host := by
  have hends : ∀ c ∈ '@' :: '/' :: '?' :: '#' :: breaks,
      c ∈ hostDelimiters ∧ c ≠ '[' ∧ c ≠ ']' ∧ isGroupChar c = false :=
    List.all_iff_forall_prop.mp (by decide)
  intro c hc hm
  obtain ⟨hdelimiter, hopen, hclose, hgroup⟩ := hends c hc
  rcases isHost_cases h with hd | ⟨text, rfl, ht⟩
  · exact hd c hdelimiter hm
  · simp only [List.mem_cons, List.mem_append, List.not_mem_nil, or_false, hopen, hclose,
      false_or] at hm
    rw [ht c hm] at hgroup
    cases hgroup

theorem splitHost_of_not_mem {host : List Char} (hcolon : ':' ∉ host) (hopen : '[' ∉ host)
    (digits : List Char) : splitHost false (host ++ ':' :: digits) = (host, digits) := by
  induction host with
  | nil => rfl
  | cons c rest ih =>
    rw [List.mem_cons, not_or] at hcolon hopen
    have hc : (c == ':') = false := beq_false_of_ne (Ne.symm hcolon.1)
    have ho : (c == '[') = false := beq_false_of_ne (Ne.symm hopen.1)
    rw [List.cons_append, splitHost, hc, ho]
    simp only [Bool.false_and, Bool.false_eq_true, if_false, Bool.or_self,
      ih hcolon.2 hopen.2]

/-- Inside brackets a colon belongs to the host, up to the closing one. -/
theorem splitHost_brackets {text : List Char} (hclose : ']' ∉ text) (digits : List Char) :
    splitHost true (text ++ ']' :: ':' :: digits) = (text ++ [']'], digits) := by
  induction text with
  | nil => rfl
  | cons c rest ih =>
    rw [List.mem_cons, not_or] at hclose
    have hc : (c != ']') = true := bne_iff_ne.mpr (Ne.symm hclose.1)
    rw [List.cons_append, splitHost, hc]
    simp only [Bool.not_true, Bool.and_false, Bool.false_eq_true, if_false, Bool.and_self,
      Bool.or_true, ih hclose.2, List.cons_append]

theorem splitHost_eq {host : List Char} (h : isHost host = true) (digits : List Char) :
    splitHost false (host ++ ':' :: digits) = (host, digits) := by
  rcases isHost_cases h with hd | ⟨text, rfl, ht⟩
  · exact splitHost_of_not_mem (hd ':' (by decide)) (hd '[' (by decide)) digits
  · have hclose : ']' ∉ text := fun hm => absurd (ht _ hm) (by decide)
    have hstep : splitHost false ('[' :: (text ++ [']']) ++ ':' :: digits) =
        ('[' :: (splitHost true (text ++ ']' :: ':' :: digits)).1,
          (splitHost true (text ++ ']' :: ':' :: digits)).2) := by
      rw [List.cons_append, List.append_assoc]
      rfl
    rw [hstep, splitHost_brackets hclose]

/-! ### Written parts -/

/-- A port is written in digits. -/
theorem not_mem_repr {c : Char} (h : c.isDigit = false) (n : Nat) : c ∉ n.repr.toList := by
  rw [Nat.toList_repr]
  intro hm
  rw [Nat.isDigit_of_mem_toDigits (by decide) (by decide) hm] at h
  cases h

/-- A port ends with no control character. -/
theorem exists_getLast?_repr (n : Nat) :
    ∃ c, n.repr.toList.getLast? = some c ∧ isControl c = false := by
  rw [Nat.toList_repr]
  have hne : Nat.toDigits 10 n ≠ [] := Nat.toDigits_ne_nil
  refine ⟨_, List.getLast?_eq_some_getLast hne, ?_⟩
  have hdigit := Nat.isDigit_of_mem_toDigits (by decide) (by decide) (List.getLast_mem hne)
  generalize (Nat.toDigits 10 n).getLast hne = c at hdigit
  have hlow : 48 ≤ c.toNat := by
    rw [Char.isDigit, Bool.and_eq_true, decide_eq_true_eq] at hdigit
    exact hdigit.1
  rw [isControl, decide_eq_false_iff_not]
  omega

/-- What ends an authority or the user in front of it does not stand in a host with a port. -/
theorem not_mem_place {host : List Char} (h : isHost host = true) (port : Nat) :
    ∀ c ∈ '@' :: '/' :: '?' :: '#' :: breaks, c ∉ host ++ ':' :: port.repr.toList := by
  have hends : ∀ c ∈ '@' :: '/' :: '?' :: '#' :: breaks, c ≠ ':' ∧ c.isDigit = false :=
    List.all_iff_forall_prop.mp (by decide)
  intro c hc hm
  obtain ⟨hcolon, hdigit⟩ := hends c hc
  rcases List.mem_append.mp hm with hm | hm
  · exact not_mem_host h c hc hm
  · rcases List.mem_cons.mp hm with he | hm
    · exact hcolon he
    · exact not_mem_repr hdigit port hm

/-- A user, a password, a host and a port are read one after the other. -/
theorem withAuthority?_eq {scheme : String}
    {authority credentials user password host path query : List Char} {port : Nat}
    (hu : splitUser authority = (credentials, host ++ ':' :: port.repr.toList))
    (hc : upTo ':' credentials = (user, password)) (hhost : isHost host = true) (hne : host ≠ [])
    (hport : port ≤ 0xffff) : withAuthority? scheme authority path query =
      some { scheme, user, password, host := some (String.ofList host), port := some port, path,
             query } := by
  have hempty : host.isEmpty = false := by simpa using hne
  simp only [withAuthority?, hu, hc, splitHost_eq hhost, hhost, hempty, port?_repr hport,
    Bool.not_true, Bool.false_and, Bool.false_eq_true, if_false, Option.map_some]

/-- Nothing is taken from the end of a text that does not end with a control character. -/
theorem rdropWhile_isControl_eq_self_iff {text : List Char} :
    text.rdropWhile isControl = text ↔ ∀ c ∈ text.getLast?, isControl c = false := by
  rw [List.rdropWhile_eq_self_iff]
  constructor
  · intro h c hc
    obtain ⟨hne, rfl⟩ := List.mem_getLast?_eq_getLast hc
    exact Bool.eq_false_iff.mpr (h hne)
  · intro h hne
    exact Bool.eq_false_iff.mp (h _ (List.getLast?_eq_some_getLast hne))

/-- The end of an address is cleaned of control characters and spaces. -/
theorem rdropWhile_append {front : List Char} {last : Char} (h : front.getLast? = some last)
    (hl : isControl last = false) (tail : List Char) :
    (front ++ tail).rdropWhile isControl = front ++ tail.rdropWhile isControl := by
  induction tail using List.reverseRecOn with
  | nil =>
    rw [List.append_nil, List.rdropWhile_nil, List.append_nil, rdropWhile_isControl_eq_self_iff, h]
    rintro _ ⟨⟩
    exact hl
  | append_singleton tail c ih =>
    rw [← List.append_assoc]
    by_cases hc : isControl c = true
    · rw [List.rdropWhile_concat_pos _ _ _ hc, List.rdropWhile_concat_pos _ _ _ hc, ih]
    · rw [List.rdropWhile_concat_neg _ _ _ hc, List.rdropWhile_concat_neg _ _ _ hc,
        List.append_assoc]

theorem cleaned_append {front tail : List Char} {first last : Char}
    (hfirst : front.head? = some first) (hf : isControl first = false)
    (hlast : front.getLast? = some last) (hl : isControl last = false)
    (hb : ∀ c ∈ breaks, c ∉ front ++ tail) :
    cleaned (front ++ tail) = front ++ tail.rdropWhile isControl := by
  have hstart : (front ++ tail).dropWhile isControl = front ++ tail := by
    obtain ⟨rest, rfl⟩ := List.head?_eq_some_iff.mp hfirst
    exact List.dropWhile_cons_of_neg (by simp [hf])
  have hends : ((((front ++ tail).dropWhile isControl).reverse.dropWhile isControl).reverse) =
      front ++ tail.rdropWhile isControl := by
    rw [hstart]
    exact rdropWhile_append hlast hl tail
  simp only [cleaned, hends]
  refine List.filter_eq_self.mpr fun c hc => ?_
  have hc : c ∉ breaks := by
    intro hm
    refine hb c hm (List.mem_append.mpr ((List.mem_append.mp hc).imp_right ?_))
    exact fun h => (List.rdropWhile_prefix isControl tail).subset h
  simpa [breaks, and_assoc] using hc

theorem cleaned_eq {text : List Char} {first last : Char} (hfirst : text.head? = some first)
    (hf : isControl first = false) (hlast : text.getLast? = some last)
    (hl : isControl last = false) (hb : ∀ c ∈ breaks, c ∉ text) : cleaned text = text := by
  rw [← List.append_nil text] at hb
  have happend := cleaned_append hfirst hf hlast hl hb
  rwa [List.rdropWhile_nil, List.append_nil] at happend

/-- How an address with an authority is cut. -/
theorem ofText?_of_cleaned {text : String} {scheme rest authority path query : List Char}
    (hc : cleaned text.toList = scheme ++ ':' :: rest) (hs : isScheme scheme = true)
    (hcolon : ':' ∉ scheme) (hhash : '#' ∉ rest)
    (hr : upTo '?' rest = ('/' :: '/' :: (authority ++ path), query)) (ha : '/' ∉ authority)
    (hp : ∀ c ∈ path.head?, c = '/') :
    ofText? text =
      withAuthority? (String.ofList (scheme.map Char.toLower)) authority (resolved path) query := by
  have hcut := (Text.cut?_eq_some_iff ':' _ scheme rest).mpr ⟨hc, hcolon⟩
  have hpos : ∀ c ∈ authority, (c != '/') = true := fun c hm =>
    bne_iff_ne.mpr fun he => ha (he ▸ hm)
  have htake : (authority ++ path).takeWhile (· != '/') = authority := by
    rw [List.takeWhile_append_of_pos hpos]
    cases path with
    | nil => rw [List.takeWhile_nil, List.append_nil]
    | cons c rest => rw [hp c rfl, List.takeWhile_cons_of_neg (by decide), List.append_nil]
  have hdrop : (authority ++ path).dropWhile (· != '/') = path := by
    rw [List.dropWhile_append_of_pos hpos]
    cases path with
    | nil => rfl
    | cons c rest => rw [hp c rfl, List.dropWhile_cons_of_neg (by decide)]
  rw [ofText?, hcut, Option.bind_some, if_pos hs, ofRest?, upTo_of_not_mem hhash, hr]
  simp only [htake, hdrop]

end Uri

end TriggerWatch
