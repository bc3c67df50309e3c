import TriggerWatch.Json.Parser
import TriggerWatch.Json.Printer

/-!
# String literals are read back

What is written for a character of a string, be it the character or an escape, is one piece for the
reader of JSON text, and that piece stands for the character. So a string is read back from its
literal, and with it every document whose members are strings.

## Main statements

- `Json.Parser.exists_piece` — what is written for a character
- `Json.Parser.string?_escape` — a string literal
- `Json.ofText?_render_member` — a document with one member
-/

namespace TriggerWatch.Json

namespace Parser

theorem hexUnit?_digitChar {n : Nat} (h : n < 0x20) :
    hexUnit? '0' '0' (Nat.digitChar (n / 16)) (Nat.digitChar (n % 16)) = some n := by
  have hall : ∀ m < 0x20,
      hexUnit? '0' '0' (Nat.digitChar (m / 16)) (Nat.digitChar (m % 16)) = some m := by decide
  exact hall n h

theorem exists_piece (c : Char) :
    ∃ p, (∀ rest, pieces? (escape c ++ rest) = (pieces? rest).map fun q => (p :: q.1, q.2)) ∧
      ∀ tail, characters? (p :: tail) = (characters? tail).map (c :: ·) := by
  unfold escape
  split
  · exact ⟨.char '"', fun _ => rfl, fun _ => rfl⟩
  · exact ⟨.char '\\', fun _ => rfl, fun _ => rfl⟩
  · exact ⟨.char '\n', fun _ => rfl, fun _ => rfl⟩
  · exact ⟨.char '\r', fun _ => rfl, fun _ => rfl⟩
  · exact ⟨.char '\t', fun _ => rfl, fun _ => rfl⟩
  · exact ⟨.char '\x08', fun _ => rfl, fun _ => rfl⟩
  · exact ⟨.char '\x0c', fun _ => rfl, fun _ => rfl⟩
  · next hquote hback _ _ _ _ _ =>
    by_cases hlow : c.toNat < 0x20
    · rw [if_pos hlow]
      refine ⟨.unit c.toNat, ?_, ?_⟩
      · intro rest
        show (hexUnit? '0' '0' _ _).bind _ = _
        rw [hexUnit?_digitChar hlow]
        rfl
      · -- a character below the space is no surrogate
        intro tail
        have hout : (c.toNat < 0xD800 || 0xDFFF < c.toNat) = true := by
          rw [Bool.or_eq_true, decide_eq_true_eq]
          exact .inl (by omega)
        rw [characters?.eq_def]
        show (if (c.toNat < 0xD800 || 0xDFFF < c.toNat) = true then _ else _) = _
        rw [if_pos hout, Char.ofNat_toNat]
    · rw [if_neg hlow]
      refine ⟨.char c, ?_, fun _ => rfl⟩
      intro rest
      have hplain : ¬ (c.toNat < 0x20 || c = '\\') = true := by
        rw [Bool.or_eq_true, decide_eq_true_eq, decide_eq_true_eq]
        rintro (h | h)
        · exact hlow h
        · exact hback h
      show pieces? (c :: rest) = _
      rw [pieces?]
      · rw [if_neg hplain]
      · exact hquote
      · intro _ _ _ _ _ h _
        exact hback h
      · intro _ _ h _
        exact hback h

theorem string?_escape (cs rest : List Char) :
    string? (cs.flatMap escape ++ '"' :: rest) = some (some (String.ofList cs), rest) := by
  have hpieces : ∃ ps, pieces? (cs.flatMap escape ++ '"' :: rest) = some (ps, rest) ∧
      characters? ps = some cs := by
    induction cs with
    | nil => exact ⟨[], rfl, rfl⟩
    | cons c cs ih =>
      obtain ⟨ps, hps, hcs⟩ := ih
      obtain ⟨p, hp, hc⟩ := exists_piece c
      refine ⟨p :: ps, ?_, ?_⟩
      · rw [List.flatMap_cons, List.append_assoc, hp, hps]
        rfl
      · rw [hc, hcs]
        rfl
  obtain ⟨ps, hps, hcs⟩ := hpieces
  rw [string?, hps, Option.map_some, hcs]
  rfl

end Parser

theorem toList_quote (s : String) :
    (quote s).toList = '"' :: (s.toList.flatMap escape ++ ['"']) := by
  simp only [quote, String.toList_append, String.toList_ofList]
  rfl

theorem toList_render_member (key text : String) :
    (render (.object [(key, .string text)])).toList =
      '\x7b' :: '"' :: (key.toList.flatMap escape ++ '"' :: ':' :: '"' ::
        (text.toList.flatMap escape ++ '"' :: ['\x7d'])) := by
  simp only [render, renderMembers, String.toList_append, toList_quote]
  simp

/-- An object with one member, which is a string, is read back from its text. -/
theorem ofText?_render_member (key text : String) :
    ofText? (render (.object [(key, .string text)])) = some (.object [(key, .string text)]) := by
  have hkey := Parser.string?_escape key.toList
    (':' :: '"' :: (text.toList.flatMap escape ++ '"' :: ['\x7d']))
  have htext := Parser.string?_escape text.toList ['\x7d']
  rw [String.ofList_toList] at hkey htext
  -- the three readers from the inside out, each with the fuel that the one around it leaves
  have hvalue (fuel depth : Nat) :
      Parser.value? (fuel + 1) depth ('"' :: (text.toList.flatMap escape ++ '"' :: ['\x7d'])) =
        some (.string text, ['\x7d']) := by
    rw [Parser.value?.eq_def]
    show (Parser.string? _).map _ = _
    rw [htext]
    rfl
  have hmembers (fuel depth : Nat) :
      Parser.members? (fuel + 2) depth ('"' :: (key.toList.flatMap escape ++ '"' :: ':' :: '"' ::
        (text.toList.flatMap escape ++ '"' :: ['\x7d']))) =
        some ([(some key, .string text)], []) := by
    rw [Parser.members?.eq_def]
    show (Parser.string? _).bind _ = _
    rw [hkey]
    show (Parser.value? (fuel + 1) depth _).bind _ = _
    rw [hvalue]
    rfl
  have hobject (fuel : Nat) :
      Parser.value? (fuel + 3) 0 (render (.object [(key, .string text)])).toList =
        some (.object [(some key, .string text)], []) := by
    rw [toList_render_member, Parser.value?.eq_def]
    show (Parser.members? (fuel + 2) 1 _).map _ = _
    rw [hmembers]
    rfl
  have hlength : 2 * (render (.object [(key, .string text)])).toList.length + 2 =
      2 * (render (.object [(key, .string text)])).toList.tail.length + 1 + 3 := by
    rw [toList_render_member, List.length_cons, List.tail_cons]
    omega
  rw [ofText?, Tree.ofText?, hlength, hobject]
  show Tree.value? (.object [(some key, .string text)]) = _
  rw [Tree.value?, Tree.memberValues?, Tree.value?, Tree.memberValues?]
  rfl

end TriggerWatch.Json
