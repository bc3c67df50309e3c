import TriggerWatch.Text.Blank
import TriggerWatch.Text.Split

/-!
# Trimmed text and pieces of text

Trimming takes blanks from the ends of a text and nothing else, so the text is what is left with
blanks around it. Splitting takes the separators, so the text is the pieces with separators between
them. Both are undone by putting back what was taken, and adding blanks before trimming, or
separators before splitting, does no harm.

## Main statements

- `Text.trim_padded` — blanks around a text do not matter
- `Text.trim_append_cons` — either side of a character that is no blank is trimmed by itself
- `Text.exists_blanks_trim` — what trimming takes away
- `Text.split_intercalate`, `Text.intercalate_split` — splitting and joining undo each other
- `Text.eq_of_append_first`, `Text.eq_of_append_last` — the parts around a separator
-/

namespace TriggerWatch.Text

/-! ### Trimming -/

theorem trimEnd_append_blanks (cs : List Char) {blanks : List Char}
    (h : blanks.all isBlank = true) : trimEnd (cs ++ blanks) = trimEnd cs := by
  induction cs with
  | nil => exact (trimEnd_eq_nil_iff blanks).mpr h
  | cons c rest ih => rw [List.cons_append, trimEnd, trimEnd, ih]

/-- Blanks around a text do not matter. -/
theorem trim_padded {before after : List Char} (hb : before.all isBlank = true)
    (ha : after.all isBlank = true) (cs : List Char) : trim (before ++ cs ++ after) = trim cs := by
  have hstart : trimStart (before ++ cs ++ after) = trimStart (cs ++ after) := by
    rw [List.append_assoc]
    exact List.dropWhile_append_of_pos (List.all_eq_true.mp hb)
  rw [trim, hstart, trimStart, List.dropWhile_append]
  split
  · next hnil =>
    rw [trim, trimStart, List.isEmpty_iff.mp hnil]
    exact (trim_eq_nil_iff after).mpr ha
  · exact trimEnd_append_blanks _ ha

/-- Around a character that is no blank, either side is trimmed by itself. -/
theorem trim_append_cons {c : Char} (h : isBlank c = false) (before after : List Char) :
    trim (before ++ c :: after) = trimStart before ++ c :: trimEnd after := by
  have hend (front : List Char) : trimEnd (front ++ c :: after) = front ++ c :: trimEnd after := by
    induction front with
    | nil =>
      rw [List.nil_append, List.nil_append, trimEnd]
      cases trimEnd after <;> simp [h]
    | cons d front ih =>
      rw [List.cons_append, trimEnd, ih]
      cases front <;> rfl
  have hstart : trimStart (before ++ c :: after) = trimStart before ++ c :: after := by
    rw [trimStart, List.dropWhile_append, List.dropWhile_cons_of_neg (by simp [h])]
    split
    · next hnil => rw [trimStart, List.isEmpty_iff.mp hnil, List.nil_append]
    · rfl
  rw [trim, hstart, hend]

theorem exists_blanks_trimEnd (cs : List Char) :
    ∃ after, after.all isBlank = true ∧ cs = trimEnd cs ++ after := by
  induction cs with
  | nil => exact ⟨[], rfl, rfl⟩
  | cons c rest ih =>
    obtain ⟨after, ha, hrest⟩ := ih
    rw [trimEnd]
    split
    · next hnil =>
      rw [hnil, List.nil_append] at hrest
      subst hrest
      by_cases hc : isBlank c = true
      · exact ⟨c :: rest, by rw [List.all_cons, hc, ha]; rfl, by simp [hc]⟩
      · exact ⟨rest, ha, by simp [hc]⟩
    · exact ⟨after, ha, congrArg (c :: ·) hrest⟩

theorem exists_blanks_trimStart (cs : List Char) :
    ∃ before, before.all isBlank = true ∧ cs = before ++ trimStart cs :=
  ⟨cs.takeWhile isBlank, List.all_takeWhile, List.takeWhile_append_dropWhile.symm⟩

/-- A text is what trimming leaves of it with blanks around it. -/
theorem exists_blanks_trim (cs : List Char) : ∃ before after, before.all isBlank = true ∧
    after.all isBlank = true ∧ cs = before ++ trim cs ++ after := by
  obtain ⟨before, hb, hstart⟩ := exists_blanks_trimStart cs
  obtain ⟨after, ha, hend⟩ := exists_blanks_trimEnd (trimStart cs)
  refine ⟨before, after, hb, ha, ?_⟩
  rw [List.append_assoc, trim, ← hend, ← hstart]

theorem trim_trim (cs : List Char) : trim (trim cs) = trim cs := by
  obtain ⟨before, after, hb, ha, hcs⟩ := exists_blanks_trim cs
  have hpadded := trim_padded hb ha (trim cs)
  rw [← hcs] at hpadded
  exact hpadded.symm

theorem trim_trimStart (cs : List Char) : trim (trimStart cs) = trim cs := by
  obtain ⟨before, hb, hcs⟩ := exists_blanks_trimStart cs
  have hpadded := trim_padded hb List.all_nil (trimStart cs)
  rw [List.append_nil, ← hcs] at hpadded
  exact hpadded.symm

theorem trim_trimEnd (cs : List Char) : trim (trimEnd cs) = trim cs := by
  obtain ⟨after, ha, hcs⟩ := exists_blanks_trimEnd cs
  have hpadded := trim_padded List.all_nil ha (trimEnd cs)
  rw [List.nil_append, ← hcs] at hpadded
  exact hpadded.symm

/-! ### Splitting -/

theorem split_of_not_mem {sep : Char} {cs : List Char} (h : sep ∉ cs) : split sep cs = [cs] := by
  induction cs with
  | nil => rfl
  | cons c rest ih =>
    have hc : c ≠ sep := fun he => h (he ▸ List.mem_cons_self)
    rw [split, if_neg hc, ih fun hm => h (List.mem_cons_of_mem _ hm)]

/-- Pieces without the separator are found back in the text that it joins. -/
theorem split_intercalate {sep : Char} {pieces : List (List Char)}
    (h : ∀ piece ∈ pieces, sep ∉ piece) (hne : pieces ≠ []) :
    split sep ([sep].intercalate pieces) = pieces := by
  induction pieces with
  | nil => exact absurd rfl hne
  | cons piece rest ih =>
    have hpiece := split_of_not_mem (h piece List.mem_cons_self)
    cases rest with
    | nil => rwa [List.intercalate_singleton]
    | cons next rest =>
      have hrest := ih (fun p hp => h p (List.mem_cons_of_mem _ hp)) (List.cons_ne_nil _ _)
      rw [List.intercalate_cons_cons, List.append_assoc, List.singleton_append, split_append,
        hpiece, hrest, List.singleton_append]

/-- A text is its pieces, joined by the separator, and it does not stand in them. -/
theorem intercalate_split (sep : Char) (cs : List Char) :
    [sep].intercalate (split sep cs) = cs ∧ ∀ piece ∈ split sep cs, sep ∉ piece := by
  induction cs with
  | nil => simp [split]
  | cons c rest ih =>
    obtain ⟨hjoin, hpieces⟩ := ih
    obtain ⟨piece, pieces, hsplit⟩ := List.exists_cons_of_ne_nil (split_ne_nil sep rest)
    rw [hsplit] at hjoin hpieces
    rw [split, hsplit]
    by_cases hc : c = sep
    · rw [if_pos hc, List.intercalate_cons_cons, hjoin, hc]
      exact ⟨rfl, List.forall_mem_cons.mpr ⟨List.not_mem_nil, hpieces⟩⟩
    · obtain ⟨hpiece, hrest⟩ := List.forall_mem_cons.mp hpieces
      rw [if_neg hc]
      refine ⟨?_, List.forall_mem_cons.mpr ⟨?_, hrest⟩⟩
      · rw [← hjoin]
        cases pieces with
        | nil => simp only [List.intercalate_singleton]
        | cons next pieces => simp only [List.intercalate_cons_cons, List.cons_append]
      · rw [List.mem_cons, not_or]
        exact ⟨Ne.symm hc, hpiece⟩

theorem subset_of_mem_split {sep : Char} {cs piece : List Char} (h : piece ∈ split sep cs) :
    piece ⊆ cs := by
  induction cs generalizing piece with
  | nil =>
    rw [List.mem_singleton.mp h]
    exact List.Subset.refl []
  | cons c rest ih =>
    obtain ⟨first, pieces, hsplit⟩ := List.exists_cons_of_ne_nil (split_ne_nil sep rest)
    rw [split, hsplit] at h
    rw [hsplit] at ih
    by_cases hc : c = sep
    · rw [if_pos hc] at h
      rcases List.mem_cons.mp h with rfl | h
      · exact List.nil_subset _
      · exact List.subset_cons_of_subset c (ih h)
    · rw [if_neg hc] at h
      rcases List.mem_cons.mp h with rfl | h
      · exact List.cons_subset_cons c (ih List.mem_cons_self)
      · exact List.subset_cons_of_subset c (ih (List.mem_cons_of_mem _ h))

theorem mem_of_mem_intercalate {sep c : Char} {pieces : List (List Char)}
    (h : c ∈ [sep].intercalate pieces) : c = sep ∨ ∃ piece ∈ pieces, c ∈ piece := by
  induction pieces with
  | nil => cases h
  | cons piece rest ih =>
    cases rest with
    | nil =>
      rw [List.intercalate_singleton] at h
      exact .inr ⟨piece, List.mem_cons_self, h⟩
    | cons next rest =>
      rw [List.intercalate_cons_cons, List.append_assoc, List.mem_append] at h
      rcases h with h | h
      · exact .inr ⟨piece, List.mem_cons_self, h⟩
      · rcases List.mem_cons.mp h with rfl | h
        · exact .inl rfl
        · refine (ih h).imp_right ?_
          rintro ⟨p, hp, hc⟩
          exact ⟨p, List.mem_cons_of_mem _ hp, hc⟩

/-! ### Boundaries -/

theorem cut?_eq_none_iff (sep : Char) (cs : List Char) : cut? sep cs = none ↔ sep ∉ cs := by
  induction cs with
  | nil => simp [cut?]
  | cons c rest ih =>
    rw [cut?, List.mem_cons, not_or]
    by_cases h : c = sep
    · simp [h]
    · rw [if_neg h, Option.map_eq_none_iff, ih]
      exact ⟨fun hr => ⟨Ne.symm h, hr⟩, And.right⟩

/-- A text is cut at the first of some characters in one way. -/
theorem eq_of_append_first {c : Char} {a a' b b' : List Char} (ha : c ∉ a) (ha' : c ∉ a')
    (h : a ++ c :: b = a' ++ c :: b') : a = a' ∧ b = b' := by
  have hcut := (cut?_eq_some_iff c _ a b).mpr ⟨rfl, ha⟩
  rw [(cut?_eq_some_iff c _ a' b').mpr ⟨h, ha'⟩] at hcut
  cases hcut
  exact ⟨rfl, rfl⟩

/-- A text is cut at the last of some characters in one way. -/
theorem eq_of_append_last {c : Char} {a a' b b' : List Char} (hb : c ∉ b) (hb' : c ∉ b')
    (h : a ++ c :: b = a' ++ c :: b') : a = a' ∧ b = b' := by
  have hreverse (x y : List Char) : (x ++ c :: y).reverse = y.reverse ++ c :: x.reverse := by
    simp
  have h := congrArg List.reverse h
  rw [hreverse, hreverse] at h
  obtain ⟨hright, hleft⟩ := eq_of_append_first (by simpa using hb) (by simpa using hb') h
  exact ⟨List.reverse_inj.mp hleft, List.reverse_inj.mp hright⟩

end TriggerWatch.Text
