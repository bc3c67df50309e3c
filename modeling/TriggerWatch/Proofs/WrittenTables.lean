import TriggerWatch.Proofs.Dictionaries
import TriggerWatch.Proofs.TextPieces
import TriggerWatch.Settings.Table

/-!
# Written tables

A table is written in segments between commas. A segment is empty or a key and a value with an
equals sign between them, and blanks may stand around every part. Exactly such texts are read, and a
table is read back from any of its written forms: in any order, with any blanks and with any number
of empty segments. Two texts with a comma between them are read as one after the other.

## Main definitions

- `Settings.IsKey`, `Settings.IsValue` — what may stand as a key and as a value
- `Settings.Segment` — what stands between two commas
- `Settings.written`, `Settings.bindings` — the text and the bindings of segments

## Main statements

- `Settings.readTable_eq_ok_iff` — the texts that are read
- `Settings.readTable_comma` — two texts with a comma between them
- `Settings.tables_exact` — reading and writing of tables
-/

namespace TriggerWatch

namespace Settings

/-! ### Written tables -/

/-- Any number of blanks. -/
abbrev Blanks := { cs : List Char // cs.all Text.isBlank = true }

/-- A text that may stand as a value in a table. -/
structure IsValue (text : String) : Prop where
  ne_empty : text ≠ ""
  isTrimmed : Text.trimmed text = text
  comma_not_mem : ',' ∉ text.toList

/-- A text that may stand as a key in a table. -/
structure IsKey (text : String) : Prop extends IsValue text where
  equals_not_mem : '=' ∉ text.toList

/-- What stands between two commas of a written table. -/
inductive Segment where
  | empty (blanks : Blanks)
  | entry (beforeKey : Blanks) (key : String) (afterKey beforeValue : Blanks) (value : String)
    (afterValue : Blanks)

namespace Segment

def text : Segment → List Char
  | empty blanks => blanks
  | entry beforeKey key afterKey beforeValue value afterValue =>
    (beforeKey.val ++ key.toList ++ afterKey.val) ++
      '=' :: (beforeValue.val ++ value.toList ++ afterValue.val)

/-- The key and the value of an entry. -/
def binding? : Segment → Option (String × String)
  | empty _ => none
  | entry _ key _ _ value _ => some (key, value)

/-- The key and the value of a segment may stand in a table. -/
def IsWritable (segment : Segment) : Prop := ∀ p ∈ segment.binding?, IsKey p.1 ∧ IsValue p.2

end Segment

/-- The table written in segments. -/
def written (segments : List Segment) : String :=
  String.ofList ([','].intercalate (segments.map Segment.text))

/-- The keys and the values in segments, in the order of the segments. -/
def bindings (segments : List Segment) : List (String × String) :=
  segments.filterMap Segment.binding?

variable {variableName : String}

theorem not_mem_of_blanks {c : Char} (h : Text.isBlank c = false) (blanks : Blanks) :
    c ∉ blanks.val := by
  intro hm
  have hblank := List.all_eq_true.mp blanks.property c hm
  rw [h] at hblank
  cases hblank

theorem IsValue.trim_eq {text : String} (h : IsValue text) :
    Text.trim text.toList = text.toList := by
  have htrimmed := congrArg String.toList h.isTrimmed
  rwa [Text.trimmed, String.toList_ofList] at htrimmed

theorem IsValue.ne_nil {text : String} (h : IsValue text) : text.toList ≠ [] :=
  fun hnil => h.ne_empty (String.toList_eq_nil_iff.mp hnil)

/-- What trimming leaves of a text may stand in a table, unless it is nothing. -/
theorem isValue_of_trim {cs : List Char} (hne : Text.trim cs ≠ []) (hcomma : ',' ∉ cs) :
    IsValue (String.ofList (Text.trim cs)) where
  ne_empty he := hne (String.ofList_eq_empty_iff.mp he)
  isTrimmed := by rw [Text.trimmed, String.toList_ofList, Text.trim_trim]
  comma_not_mem hm := by
    obtain ⟨before, after, -, -, hcs⟩ := Text.exists_blanks_trim cs
    rw [String.toList_ofList] at hm
    exact hcomma (hcs ▸ List.mem_append_left after (List.mem_append_right before hm))

theorem readEntry_eq_ok_iff {entry : List Char} {p : String × String} :
    readEntry variableName entry = .ok p ↔ ∃ left right, entry = left ++ '=' :: right ∧
      '=' ∉ left ∧ Text.trim left ≠ [] ∧ Text.trim right ≠ [] ∧
        p = (String.ofList (Text.trim left), String.ofList (Text.trim right)) := by
  cases hcut : Text.cut? '=' entry with
  | none =>
    rw [readEntry, hcut]
    refine iff_of_false nofun ?_
    rintro ⟨left, right, hentry, hequals, -⟩
    rw [(Text.cut?_eq_some_iff _ _ _ _).mpr ⟨hentry, hequals⟩] at hcut
    cases hcut
  | some sides =>
    obtain ⟨left, right⟩ := sides
    have hsides := (Text.cut?_eq_some_iff _ _ _ _).mp hcut
    have hunique {left' right' : List Char} (h : entry = left' ++ '=' :: right' ∧ '=' ∉ left') :
        left = left' ∧ right = right' := by
      rw [(Text.cut?_eq_some_iff _ _ _ _).mpr h] at hcut
      cases hcut
      exact ⟨rfl, rfl⟩
    rw [readEntry, hcut]
    show (if ((Text.trim left).isEmpty || (Text.trim right).isEmpty) = true then _ else _) = _ ↔ _
    by_cases hempty : ((Text.trim left).isEmpty || (Text.trim right).isEmpty) = true
    · rw [if_pos hempty]
      refine iff_of_false nofun ?_
      rintro ⟨left', right', hentry, hequals, hleft, hright, -⟩
      obtain ⟨rfl, rfl⟩ := hunique ⟨hentry, hequals⟩
      simp [hleft, hright] at hempty
    · rw [if_neg hempty]
      simp only [Bool.or_eq_true, List.isEmpty_iff, not_or] at hempty
      constructor
      · rintro ⟨⟩
        exact ⟨left, right, hsides.1, hsides.2, hempty.1, hempty.2, rfl⟩
      · rintro ⟨left', right', hentry, hequals, -, -, rfl⟩
        obtain ⟨rfl, rfl⟩ := hunique ⟨hentry, hequals⟩
        rfl

namespace Segment

theorem comma_not_mem {segment : Segment} (h : segment.IsWritable) : ',' ∉ segment.text := by
  have hblanks : ∀ blanks : Blanks, ',' ∉ blanks.val := not_mem_of_blanks rfl
  cases segment with
  | empty blanks => exact hblanks blanks
  | entry beforeKey key afterKey beforeValue value afterValue =>
    obtain ⟨hkey, hvalue⟩ := h _ rfl
    simp [text, hblanks, hkey.comma_not_mem, hvalue.comma_not_mem]

/-- An entry is read with its key and its value. -/
theorem readEntry_trim (variableName : String) {segment : Segment} {p : String × String}
    (h : segment.IsWritable) (hp : segment.binding? = some p) :
    Text.trim segment.text ≠ [] ∧ readEntry variableName (Text.trim segment.text) = .ok p := by
  cases segment with
  | empty => cases hp
  | entry beforeKey key afterKey beforeValue value afterValue =>
    cases hp
    obtain ⟨hkey, hvalue⟩ := h _ rfl
    have hblanks : ∀ blanks : Blanks, '=' ∉ blanks.val := not_mem_of_blanks rfl
    have htrim := Text.trim_append_cons (c := '=') rfl
      (beforeKey.val ++ key.toList ++ afterKey.val)
      (beforeValue.val ++ value.toList ++ afterValue.val)
    have hequals : '=' ∉ Text.trimStart (beforeKey.val ++ key.toList ++ afterKey.val) := by
      intro hm
      have hmem := (List.dropWhile_sublist _).mem hm
      simp [hblanks, hkey.equals_not_mem] at hmem
    have hleft : Text.trim (Text.trimStart (beforeKey.val ++ key.toList ++ afterKey.val)) =
        key.toList := by
      rw [Text.trim_trimStart, Text.trim_padded beforeKey.property afterKey.property, hkey.trim_eq]
    have hright :
        Text.trim (Text.trimEnd (beforeValue.val ++ value.toList ++ afterValue.val)) =
          value.toList := by
      rw [Text.trim_trimEnd, Text.trim_padded beforeValue.property afterValue.property,
        hvalue.trim_eq]
    rw [text, htrim]
    refine ⟨List.append_ne_nil_of_right_ne_nil _ (List.cons_ne_nil _ _), ?_⟩
    rw [readEntry_eq_ok_iff]
    refine ⟨_, _, rfl, hequals, ?_, ?_, ?_⟩
    · rw [hleft]
      exact hkey.ne_nil
    · rw [hright]
      exact hvalue.ne_nil
    · rw [hleft, hright, String.ofList_toList, String.ofList_toList]

/-- An entry that is read is a key and a value, with an equals sign between them and blanks around
them. -/
theorem exists_of_readEntry {piece : List Char} {p : String × String} (hcomma : ',' ∉ piece)
    (h : readEntry variableName (Text.trim piece) = .ok p) :
    ∃ segment : Segment, segment.IsWritable ∧ segment.text = piece ∧ segment.binding? = some p := by
  obtain ⟨left, right, htrim, hequals, hleft, hright, rfl⟩ := readEntry_eq_ok_iff.mp h
  obtain ⟨before, after, hb, ha, hpiece⟩ := Text.exists_blanks_trim piece
  obtain ⟨beforeKey, afterKey, hbk, hak, hkey⟩ := Text.exists_blanks_trim left
  obtain ⟨beforeValue, afterValue, hbv, hav, hvalue⟩ := Text.exists_blanks_trim right
  have hsides : ',' ∉ left ∧ ',' ∉ right := by
    rw [hpiece, htrim] at hcomma
    simp only [List.mem_append, List.mem_cons, not_or] at hcomma
    exact ⟨hcomma.1.2.1, hcomma.1.2.2.2⟩
  have hequals' : '=' ∉ Text.trim left := by
    intro hm
    rw [hkey] at hequals
    exact hequals (List.mem_append_left _ (List.mem_append_right _ hm))
  refine ⟨.entry ⟨before ++ beforeKey, by rw [List.all_append, hb, hbk]; rfl⟩
    (String.ofList (Text.trim left)) ⟨afterKey, hak⟩ ⟨beforeValue, hbv⟩
    (String.ofList (Text.trim right)) ⟨afterValue ++ after, by rw [List.all_append, hav, ha]; rfl⟩,
    ?_, ?_, rfl⟩
  · rintro _ ⟨⟩
    exact ⟨{
      toIsValue := isValue_of_trim hleft hsides.1
      equals_not_mem := by rwa [String.toList_ofList] }, isValue_of_trim hright hsides.2⟩
  · conv_rhs => rw [hpiece, htrim, hkey, hvalue]
    simp only [text, String.toList_ofList, List.append_assoc, List.cons_append]

end Segment

/-! ### Reading segment by segment -/

theorem entries_join {pieces : List (List Char)} (h : ∀ piece ∈ pieces, ',' ∉ piece) :
    entries ([','].intercalate pieces) =
      (pieces.map Text.trim).filter fun entry => !entry.isEmpty := by
  cases pieces with
  | nil => rfl
  | cons piece rest => rw [entries, Text.split_intercalate h (List.cons_ne_nil _ _)]

/-- Segments are read with their keys and values, one after the other. -/
theorem addEntries_segments {segments : List Segment} (h : ∀ s ∈ segments, s.IsWritable)
    (table : Dict String) :
    addEntries variableName
      (((segments.map Segment.text).map Text.trim).filter fun entry => !entry.isEmpty) table =
        .ok (table.insertAll (bindings segments)) := by
  induction segments generalizing table with
  | nil => rfl
  | cons segment rest ih =>
    obtain ⟨hsegment, hrest⟩ := List.forall_mem_cons.mp h
    cases hp : segment.binding? with
    | none =>
      have hblank : Text.trim segment.text = [] := by
        cases segment with
        | empty blanks => exact (Text.trim_eq_nil_iff _).mpr blanks.property
        | entry => cases hp
      have hbindings : bindings (segment :: rest) = bindings rest := List.filterMap_cons_none hp
      rw [List.map_cons, List.map_cons, hblank, List.filter_cons_of_neg (by simp), ih hrest,
        hbindings]
    | some p =>
      obtain ⟨hne, hread⟩ := Segment.readEntry_trim variableName hsegment hp
      have hbindings : bindings (segment :: rest) = p :: bindings rest :=
        List.filterMap_cons_some hp
      rw [List.map_cons, List.map_cons, List.filter_cons_of_pos (by simpa using hne), addEntries,
        hread, hbindings]
      exact ih hrest (table.insert p.1 p.2)

/-- Pieces that are read are segments. -/
theorem exists_segments {pieces : List (List Char)} (h : ∀ piece ∈ pieces, ',' ∉ piece)
    {table result : Dict String}
    (hread : addEntries variableName
      ((pieces.map Text.trim).filter fun entry => !entry.isEmpty) table = .ok result) :
    ∃ segments : List Segment, (∀ s ∈ segments, s.IsWritable) ∧
      segments.map Segment.text = pieces ∧ result = table.insertAll (bindings segments) := by
  induction pieces generalizing table with
  | nil => exact ⟨[], List.forall_mem_nil _, rfl, (Except.ok.inj hread).symm⟩
  | cons piece rest ih =>
    obtain ⟨hpiece, hrest⟩ := List.forall_mem_cons.mp h
    rw [List.map_cons] at hread
    by_cases hblank : Text.trim piece = []
    · rw [hblank, List.filter_cons_of_neg (by simp)] at hread
      obtain ⟨segments, hw, htext, hresult⟩ := ih hrest hread
      refine ⟨.empty ⟨piece, (Text.trim_eq_nil_iff piece).mp hblank⟩ :: segments, ?_, ?_, hresult⟩
      · exact List.forall_mem_cons.mpr ⟨nofun, hw⟩
      · rw [List.map_cons, htext]
        rfl
    · rw [List.filter_cons_of_pos (by simpa using hblank), addEntries] at hread
      split at hread
      · cases hread
      · next key value hentry =>
        obtain ⟨segment, hsegment, rfl, hp⟩ := Segment.exists_of_readEntry hpiece hentry
        obtain ⟨segments, hw, htext, hresult⟩ := ih hrest hread
        refine ⟨segment :: segments, List.forall_mem_cons.mpr ⟨hsegment, hw⟩, ?_, ?_⟩
        · rw [List.map_cons, htext]
        · have hbindings : bindings (segment :: segments) = (key, value) :: bindings segments :=
            List.filterMap_cons_some hp
          rw [hresult, hbindings]
          rfl

/-! ### Tables joined by a comma -/

theorem addEntries_append (es es' : List (List Char)) (table : Dict String) :
    addEntries variableName (es ++ es') table =
      addEntries variableName es table >>= addEntries variableName es' := by
  induction es generalizing table with
  | nil => rfl
  | cons entry rest ih =>
    rw [List.cons_append, addEntries, addEntries]
    split
    · rfl
    · exact ih _

/-- Whether entries are flawed does not depend on the table that they are added to. -/
theorem addEntries_uniform (variableName : String) (es : List (List Char)) :
    (∃ flaw, ∀ table, addEntries variableName es table = .error flaw) ∨
      ∃ pairs : List (String × String), ∀ table : Dict String,
        addEntries variableName es table = .ok (table.insertAll pairs) := by
  induction es with
  | nil => exact .inr ⟨[], fun _ => rfl⟩
  | cons entry rest ih =>
    cases hentry : readEntry variableName entry with
    | error flaw => exact .inl ⟨flaw, fun table => by rw [addEntries, hentry]⟩
    | ok p =>
      have hstep (table : Dict String) : addEntries variableName (entry :: rest) table =
          addEntries variableName rest (table.insert p.1 p.2) := by rw [addEntries, hentry]
      refine ih.imp ?_ ?_
      · rintro ⟨flaw, hrest⟩
        exact ⟨flaw, fun table => (hstep table).trans (hrest _)⟩
      · rintro ⟨pairs, hrest⟩
        exact ⟨p :: pairs, fun table => (hstep table).trans (hrest _)⟩

theorem isSorted_of_readTable {text : String} {table : Dict String}
    (h : readTable variableName text = .ok table) : table.IsSorted := by
  rcases addEntries_uniform variableName (entries text.toList) with
    ⟨flaw, hflaw⟩ | ⟨pairs, hpairs⟩
  · rw [readTable, hflaw] at h
    cases h
  · rw [readTable, hpairs] at h
    cases h
    exact Dict.isSorted_ofList pairs

/-- Two texts around a comma are read one after the other. -/
theorem readTable_comma (a b : String) :
    readTable variableName (a ++ "," ++ b) = (do
      let first ← readTable variableName a
      let second ← readTable variableName b
      return first.extend second) := by
  have hentries : entries (a ++ "," ++ b).toList = entries a.toList ++ entries b.toList := by
    have htext : (a ++ "," ++ b).toList = a.toList ++ ',' :: b.toList := by
      simp [String.toList_append]
    rw [htext, entries, Text.split_append, List.map_append, List.filter_append]
    rfl
  rw [readTable, hentries, addEntries_append]
  cases hfirst : readTable variableName a with
  | error flaw =>
    rw [readTable] at hfirst
    rw [hfirst]
    rfl
  | ok first =>
    have hsorted := isSorted_of_readTable hfirst
    rw [readTable] at hfirst
    rw [hfirst]
    show addEntries variableName (entries b.toList) first = _
    rcases addEntries_uniform variableName (entries b.toList) with
      ⟨flaw, hflaw⟩ | ⟨pairs, hpairs⟩
    · rw [readTable, hflaw, hflaw]
      rfl
    · rw [readTable, hpairs, hpairs]
      show _ = Except.ok (first.extend (Dict.ofList pairs))
      rw [Dict.extend_ofList hsorted]

/-! ### The table grammar -/

theorem readTable_eq_ok_iff {text : String} {table : Dict String} :
    readTable variableName text = .ok table ↔ ∃ segments : List Segment,
      (∀ s ∈ segments, s.IsWritable) ∧ text = written segments ∧
        table = Dict.ofList (bindings segments) := by
  constructor
  · intro h
    obtain ⟨hjoin, hpieces⟩ := Text.intercalate_split ',' text.toList
    obtain ⟨segments, hw, htext, hresult⟩ := exists_segments hpieces h
    refine ⟨segments, hw, ?_, hresult⟩
    rw [written, htext, hjoin, String.ofList_toList]
  · rintro ⟨segments, hw, rfl, rfl⟩
    have hcommas : ∀ piece ∈ segments.map Segment.text, ',' ∉ piece := by
      intro piece hpiece
      obtain ⟨segment, hsegment, rfl⟩ := List.mem_map.mp hpiece
      exact Segment.comma_not_mem (hw segment hsegment)
    rw [readTable, written, String.toList_ofList, entries_join hcommas]
    exact addEntries_segments hw []

/-- A table is read back from every text that is written for it. Nothing else is read than texts
written in segments, and of a key that stands in several of them the last one counts. Two texts with
a comma between them are read as the first table overridden by the second one; if one of them is
flawed, so is the whole, with the flaw of the first one before that of the second one. -/
theorem tables_exact (variableName : String) :
    (∀ (table : Dict String) (segments : List Segment), table.IsSorted →
      (∀ p ∈ table, IsKey p.1 ∧ IsValue p.2) → (bindings segments).Perm table →
        readTable variableName (written segments) = .ok table) ∧
    (∀ text table, readTable variableName text = .ok table ↔ ∃ segments : List Segment,
      (∀ s ∈ segments, s.IsWritable) ∧ text = written segments ∧
        table = Dict.ofList (bindings segments)) ∧
    ∀ a b : String,
      (∀ first second, readTable variableName a = .ok first →
        readTable variableName b = .ok second →
        ∃ both, readTable variableName (a ++ "," ++ b) = .ok both ∧ both.IsSorted ∧
          ∀ key, both.get? key = (second.get? key).or (first.get? key)) ∧
      (∀ flaw, readTable variableName a = .error flaw →
        readTable variableName (a ++ "," ++ b) = .error flaw) ∧
      ∀ first flaw, readTable variableName a = .ok first →
        readTable variableName b = .error flaw →
        readTable variableName (a ++ "," ++ b) = .error flaw := by
  refine ⟨?_, fun text table => readTable_eq_ok_iff, fun a b => ⟨?_, ?_, ?_⟩⟩
  · intro table segments hsorted hplain hperm
    refine readTable_eq_ok_iff.mpr ⟨segments, ?_, rfl, (Dict.ofList_of_perm hsorted hperm).symm⟩
    intro segment hsegment p hp
    exact hplain p (hperm.mem_iff.mp (List.mem_filterMap.mpr ⟨segment, hsegment, hp⟩))
  · intro first second hfirst hsecond
    refine ⟨first.extend second, ?_, Dict.isSorted_extend (isSorted_of_readTable hfirst) second,
      Dict.get?_extend_of_isSorted (isSorted_of_readTable hsecond) first⟩
    rw [readTable_comma, hfirst, hsecond]
    rfl
  · intro flaw hflaw
    rw [readTable_comma, hflaw]
    rfl
  · intro first flaw hfirst hflaw
    rw [readTable_comma, hfirst, hflaw]
    rfl

/-- Two beacons, written with blanks of several kinds and with empty segments. -/
def beaconSegments : List Segment :=
  [.empty ⟨[], rfl⟩,
    .entry ⟨['\u00a0'], rfl⟩ "b 2" ⟨[' ', '\t'], rfl⟩ ⟨['\n'], rfl⟩ "B=b" ⟨[], rfl⟩,
    .empty ⟨['\u2003'], rfl⟩, .entry ⟨[], rfl⟩ "a" ⟨[], rfl⟩ ⟨[], rfl⟩ "A" ⟨[' '], rfl⟩]

theorem tables_exact_of_beaconSegments :
    written beaconSegments = ",\u00a0b 2 \t=\nB=b,\u2003,a=A " ∧
      readTable "MAP" (written beaconSegments) = .ok [("a", "A"), ("b 2", "B=b")] ∧
      readTable "MAP" ("a=1,b" ++ "," ++ "=") =
        .error (.entryWithoutEquals "MAP" "b") ∧
      readTable "MAP" ("a=1" ++ "," ++ "=") = .error (.entryWithEmptySide "MAP" "=") ∧
      ∃ both, readTable "MAP" ("a=1,b=2" ++ "," ++ "a=3") = .ok both ∧
        both.get? "a" = some "3" ∧ both.get? "b" = some "2" := by
  obtain ⟨hback, -, hcomma⟩ := tables_exact "MAP"
  have hplain : ∀ p ∈ [("a", "A"), ("b 2", "B=b")], IsKey p.1 ∧ IsValue p.2 := by
    simp only [List.forall_mem_cons, List.not_mem_nil, false_implies, implies_true, and_true]
    exact ⟨⟨⟨⟨by decide, by decide, by decide⟩, by decide⟩, ⟨by decide, by decide, by decide⟩⟩,
      ⟨⟨⟨by decide, by decide, by decide⟩, by decide⟩, ⟨by decide, by decide, by decide⟩⟩⟩
  have hsorted : Dict.IsSorted [("a", "A"), ("b 2", "B=b")] := List.pairwise_pair.mpr (by decide)
  obtain ⟨both, hboth, -, hget⟩ := (hcomma "a=1,b=2" "a=3").1 [("a", "1"), ("b", "2")]
    [("a", "3")] rfl rfl
  exact ⟨by decide, hback _ beaconSegments hsorted hplain (.swap _ _ _),
    (hcomma "a=1,b" "=").2.1 _ rfl, (hcomma "a=1" "=").2.2 [("a", "1")] _ rfl rfl, both, hboth,
    hget "a", hget "b"⟩

end Settings

end TriggerWatch
