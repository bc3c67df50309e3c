import Mathlib.Data.List.TakeWhile
import TriggerWatch.Uri

/-!
# Parts without escapes

A part of an address stands for itself as long as no percent sign in it begins an escape. What
bytes stand for is then the text that was written: decoding undoes UTF-8, whether it may fail or
puts replacement characters.

## Main definitions

- `Uri.hasEscape` — whether a percent sign is followed by two hexadecimal digits

## Main statements

- `Text.ofBytes?_utf8`, `Text.shown_utf8` — text is found back from its bytes
- `Uri.unescape?_toList`, `Uri.settingText_toList` — a part without escapes is its own text
-/

namespace TriggerWatch

namespace Text

/-- The bytes of a text are read as this text. -/
theorem ofBytes?_utf8 (cs : List Char) :
    ofBytes? (cs.flatMap String.utf8EncodeChar) = some (String.ofList cs) := by
  have hbytes : (⟨(cs.flatMap String.utf8EncodeChar).toArray⟩ : ByteArray) = cs.utf8Encode :=
    ByteArray.ext (by rw [List.utf8Encode, List.data_toByteArray])
  rw [ofBytes?, hbytes, String.fromUTF8?, dif_pos ⟨cs, rfl⟩]
  rfl

theorem toNat_ofNat_of_lt {n : Nat} (h : n < 256) : (UInt8.ofNat n).toNat = n := by
  rw [UInt8.toNat_ofNat']
  exact Nat.mod_eq_of_lt h

/-- What a first byte announces, by its number. -/
theorem announced?_ofNat {n : Nat} (h : n < 256) :
    announced? (UInt8.ofNat n) =
      if 0xc2 ≤ n ∧ n ≤ 0xdf then some (1, 0x80, 0xbf)
      else if n = 0xe0 then some (2, 0xa0, 0xbf)
      else if n = 0xed then some (2, 0x80, 0x9f)
      else if 0xe1 ≤ n ∧ n ≤ 0xef then some (2, 0x80, 0xbf)
      else if n = 0xf0 then some (3, 0x90, 0xbf)
      else if n = 0xf4 then some (3, 0x80, 0x8f)
      else if 0xf1 ≤ n ∧ n ≤ 0xf3 then some (3, 0x80, 0xbf)
      else none := by
  simp only [announced?, UInt8.le_iff_toNat_le, ← UInt8.toNat_inj, toNat_ofNat_of_lt h,
    UInt8.reduceToNat]

theorem isBetween_ofNat {low high : UInt8} {n : Nat} (h : n < 256) (hl : low.toNat ≤ n)
    (hh : n ≤ high.toNat) : (low ≤ UInt8.ofNat n && UInt8.ofNat n ≤ high) = true := by
  simp only [UInt8.le_iff_toNat_le, toNat_ofNat_of_lt h, hl, hh, decide_true, Bool.and_self]

/-- The number of three bytes is announced, with its range for the second byte. -/
theorem announced?_three {v : Nat} (hl : 0x7ff < v) (hh : v ≤ 0xffff)
    (hv : v < 0xd800 ∨ 0xdfff < v) :
    ∃ low high, announced? (UInt8.ofNat (v / 4096 % 0x10 + 0xe0)) = some (2, low, high) ∧
      low.toNat ≤ v / 64 % 0x40 + 0x80 ∧ v / 64 % 0x40 + 0x80 ≤ high.toNat := by
  rw [announced?_ofNat (by omega), if_neg (by omega)]
  by_cases he : v / 4096 % 0x10 + 0xe0 = 0xe0
  · rw [if_pos he]
    refine ⟨_, _, rfl, ?_, ?_⟩ <;> simp only [UInt8.reduceToNat] <;> omega
  · rw [if_neg he]
    by_cases hd : v / 4096 % 0x10 + 0xe0 = 0xed
    · rw [if_pos hd]
      refine ⟨_, _, rfl, ?_, ?_⟩ <;> simp only [UInt8.reduceToNat] <;> omega
    · rw [if_neg hd, if_pos (by omega)]
      refine ⟨_, _, rfl, ?_, ?_⟩ <;> simp only [UInt8.reduceToNat] <;> omega

theorem announced?_four {v : Nat} (hl : 0xffff < v) (hh : v < 0x110000) :
    ∃ low high, announced? (UInt8.ofNat (v / 262144 % 0x08 + 0xf0)) = some (3, low, high) ∧
      low.toNat ≤ v / 4096 % 0x40 + 0x80 ∧ v / 4096 % 0x40 + 0x80 ≤ high.toNat := by
  rw [announced?_ofNat (by omega), if_neg (by omega), if_neg (by omega), if_neg (by omega),
    if_neg (by omega)]
  by_cases hf : v / 262144 % 0x08 + 0xf0 = 0xf0
  · rw [if_pos hf]
    refine ⟨_, _, rfl, ?_, ?_⟩ <;> simp only [UInt8.reduceToNat] <;> omega
  · rw [if_neg hf]
    by_cases he : v / 262144 % 0x08 + 0xf0 = 0xf4
    · rw [if_pos he]
      refine ⟨_, _, rfl, ?_, ?_⟩ <;> simp only [UInt8.reduceToNat] <;> omega
    · rw [if_neg he, if_pos (by omega)]
      refine ⟨_, _, rfl, ?_, ?_⟩ <;> simp only [UInt8.reduceToNat] <;> omega

/-- The bytes of a character that the first one announces follow it. -/
theorem followers_eq {first second low high : UInt8} {more : List UInt8}
    (ha : announced? first = some (more.length + 1, low, high))
    (hs : (low ≤ second && second ≤ high) = true)
    (hm : ∀ b ∈ more, (0x80 ≤ b && b ≤ 0xbf) = true) (rest : List UInt8) :
    followers first (second :: more ++ rest) = (second :: more).length := by
  have htake : (more ++ rest).take (more.length + 1 - 1) = more := by
    rw [Nat.add_sub_cancel, List.take_left]
  unfold followers
  rw [ha]
  simp only [List.cons_append, hs, if_true, htake]
  rw [List.takeWhile_eq_self_iff.mpr hm, List.length_cons, Nat.add_comm]

/-- The first byte of a character announces the others. -/
theorem followers_utf8 (c : Char) {first : UInt8} {more : List UInt8}
    (h : String.utf8EncodeChar c = first :: more) (rest : List UInt8) :
    followers first (more ++ rest) = more.length := by
  have hvalid : c.val.toNat < 0xd800 ∨ 0xdfff < c.val.toNat ∧ c.val.toNat < 0x110000 := c.valid
  have hnext (n : Nat) : ((0x80 : UInt8) ≤ UInt8.ofNat (n % 0x40 + 0x80) &&
      UInt8.ofNat (n % 0x40 + 0x80) ≤ 0xbf) = true :=
    isBetween_ofNat (by omega) (Nat.le_add_left _ _) (by simp only [UInt8.reduceToNat]; omega)
  rw [String.utf8EncodeChar] at h
  generalize c.val.toNat = v at h hvalid
  by_cases h1 : v ≤ 0x7f
  · rw [if_pos h1] at h
    obtain ⟨rfl, rfl⟩ := List.cons.inj h
    have hnone : announced? (UInt8.ofNat v) = none := by
      rw [announced?_ofNat (by omega)]
      simp (disch := omega) only [if_neg]
    unfold followers
    rw [hnone]
    rfl
  · rw [if_neg h1] at h
    by_cases h2 : v ≤ 0x7ff
    · rw [if_pos h2] at h
      obtain ⟨rfl, rfl⟩ := List.cons.inj h
      refine followers_eq ?_ (hnext _) (List.forall_mem_nil _) rest
      rw [announced?_ofNat (by omega), if_pos (by omega)]
      rfl
    · rw [if_neg h2] at h
      by_cases h3 : v ≤ 0xffff
      · rw [if_pos h3] at h
        obtain ⟨rfl, rfl⟩ := List.cons.inj h
        obtain ⟨low, high, ha, hl, hh⟩ := announced?_three (by omega) h3 (by omega)
        refine followers_eq ha (isBetween_ofNat (by omega) hl hh) ?_ rest
        exact List.forall_mem_singleton.mpr (hnext _)
      · rw [if_neg h3] at h
        obtain ⟨rfl, rfl⟩ := List.cons.inj h
        obtain ⟨low, high, ha, hl, hh⟩ := announced?_four (v := v) (by omega) (by omega)
        refine followers_eq ha (isBetween_ofNat (by omega) hl hh) ?_ rest
        exact List.forall_mem_cons.mpr ⟨hnext _, List.forall_mem_singleton.mpr (hnext _)⟩

/-- The bytes of a text are shown as this text. -/
theorem shown_utf8 (cs : List Char) :
    shown (cs.flatMap String.utf8EncodeChar) = String.ofList cs := by
  induction cs with
  | nil => rw [List.flatMap_nil, shown]
  | cons c rest ih =>
    obtain ⟨first, more, hc⟩ := List.exists_cons_of_ne_nil (String.utf8EncodeChar_ne_nil (c := c))
    have hone := ofBytes?_utf8 [c]
    rw [List.flatMap_singleton, hc] at hone
    rw [List.flatMap_cons, hc, List.cons_append, shown, followers_utf8 c hc, List.take_left,
      List.drop_left, hone, ih, Option.getD_some, ← String.ofList_append, List.singleton_append]

end Text

namespace Uri

/-- Whether a percent sign is followed by two hexadecimal digits. -/
def hasEscape : List Char → Bool
  | c :: a :: b :: rest =>
    c == '%' && (hexDigit? a).isSome && (hexDigit? b).isSome || hasEscape (a :: b :: rest)
  | _ => false

/-- Without escapes the bytes of a part are those of its text. -/
theorem bytes_eq {part : List Char} (h : hasEscape part = false) :
    bytes part = part.flatMap String.utf8EncodeChar := by
  induction part using bytes.induct with
  | case1 | case2 | case3 => simp [bytes]
  | case4 c a b rest high low hc ha hb ih =>
    rw [hasEscape, hc, ha, hb] at h
    cases h
  | case5 c a b rest hn ih =>
    rw [hasEscape, Bool.or_eq_false_iff] at h
    rw [bytes]
    split
    · next high low hc ha hb => exact (hn high low hc ha hb).elim
    · exact congrArg (String.utf8EncodeChar c ++ ·) (ih h.2)

/-- A part without escapes is its own text. -/
theorem unescape?_toList {text : String} (h : hasEscape text.toList = false) :
    unescape? text.toList = some text := by
  rw [unescape?, bytes_eq h, Text.ofBytes?_utf8, String.ofList_toList]

/-- A setting without escapes and plus signs is its own text. -/
theorem settingText_toList {text : String} (h : hasEscape text.toList = false)
    (hplus : '+' ∉ text.toList) : settingText text.toList = text := by
  have hmap : text.toList.map (fun c => if c == '+' then ' ' else c) = text.toList := by
    refine (List.map_congr_left fun c hc => ?_).trans (List.map_id _)
    have hne : c ≠ '+' := fun he => hplus (he ▸ hc)
    rw [if_neg (by simpa using hne)]
    rfl
  rw [settingText, hmap, bytes_eq h, Text.shown_utf8, String.ofList_toList]

end Uri

end TriggerWatch
