import ConstraintFacets.Proofs.Fragment.TagReader
import ConstraintFacets.Text.Character

/-! # What a processor makes of attribute values

A processor of XML first makes every line end of a document a line feed
(`ConstraintFacets.Markup.unifyLineEnds`). Then, in the value of an attribute, it turns
every tab, line feed and carriage return that stands there literally into a blank, and
expands the references (`ConstraintFacets.Markup.attributeValue?`). Escaping protects the
characters that markup gives a meaning to, but not these three: from the written form of a
text a processor obtains the text with a blank for each of them, and for each pair of
carriage return and line feed (`ConstraintFacets.Markup.attributeValue?_escape`,
`ConstraintFacets.Markup.unifyLineEnds_escape`). Only a text without such characters comes
back as it was (`ConstraintFacets.Markup.normalized_eq_self_iff`).
-/

namespace ConstraintFacets.Markup

/-- Whether a character may stand in a document. -/
def isAllowed (c : Char) : Bool :=
  c = '\t' || c = '\n' || c = '\r' || (0x20 ≤ c.toNat && c.toNat ≤ 0xD7FF) ||
    (0xE000 ≤ c.toNat && c.toNat ≤ 0xFFFD) || 0x10000 ≤ c.toNat

/-- Every character from the blank up to the surrogates may stand in a document. -/
theorem isAllowed_of_printable {c : Char} (low : 0x20 ≤ c.toNat) (high : c.toNat ≤ 0xD7FF) :
    isAllowed c := by
  simp [isAllowed, low, high]

/-- Whether a character is white space other than a blank. -/
def isBreak (c : Char) : Bool :=
  c = '\t' || c = '\n' || c = '\r'

/-- White space other than the blank is a tab, a line feed or a carriage return. -/
theorem isBreak_iff {c : Char} : isBreak c = true ↔ c = '\t' ∨ c = '\n' ∨ c = '\r' := by
  simp [isBreak, or_assoc]

/-- A character, with a blank for white space. -/
def asBlank (c : Char) : Char :=
  if isBreak c then ' ' else c

theorem isBreak_asBlank (c : Char) : isBreak (asBlank c) = false := by
  unfold asBlank
  split
  · rfl
  · rename_i solid
    exact Bool.eq_false_iff.mpr solid

theorem asBlank_of_not_isBreak {c : Char} (solid : isBreak c = false) : asBlank c = c :=
  if_neg (Bool.eq_false_iff.mp solid)

/-- A text with a line feed for each line end: a carriage return is dropped before a line
feed, and replaced by one elsewhere. -/
def unifyLineEnds : List Char → List Char
  | [] => []
  | c :: rest =>
    if c = '\r' then
      if rest.head? = some '\n' then unifyLineEnds rest else '\n' :: unifyLineEnds rest
    else c :: unifyLineEnds rest

/-- Up to the first carriage return nothing changes. -/
theorem unifyLineEnds_append_of_not_mem {front : List Char} (free : '\r' ∉ front)
    (back : List Char) : unifyLineEnds (front ++ back) = front ++ unifyLineEnds back := by
  induction front with
  | nil => rfl
  | cons c rest ih =>
      rw [List.mem_cons, not_or] at free
      rw [List.cons_append, unifyLineEnds, if_neg (Ne.symm free.1), ih free.2, List.cons_append]

/-- Without carriage returns nothing changes. -/
theorem unifyLineEnds_of_not_mem {text : List Char} (free : '\r' ∉ text) :
    unifyLineEnds text = text := by
  have whole := unifyLineEnds_append_of_not_mem free []
  rwa [unifyLineEnds, List.append_nil] at whole

/-- Line ends do not reach over a character that belongs to none. -/
theorem unifyLineEnds_append_cons {c : Char} (noReturn : c ≠ '\r') (noFeed : c ≠ '\n')
    (front back : List Char) :
    unifyLineEnds (front ++ c :: back) = unifyLineEnds front ++ c :: unifyLineEnds back := by
  induction front with
  | nil => simp [unifyLineEnds, noReturn]
  | cons d rest ih =>
      have head : (rest ++ c :: back).head? = some '\n' ↔ rest.head? = some '\n' := by
        cases rest <;> simp [noFeed]
      simp only [List.cons_append, unifyLineEnds, head, ih]
      split
      · split <;> rfl
      · rfl

/-- Escaping a character puts no white space in its place. -/
theorem not_mem_escapeChar {mark c : Char} (white : isBreak mark) (other : c ≠ mark) :
    mark ∉ escapeChar c := by
  rcases escapeChar_cases c with ⟨name, listed, asEntity⟩ | ⟨-, asItself⟩
  · have free : ∀ entry ∈ entities, mark ∉ '&' :: entry.1 ++ [';'] := by
      rcases isBreak_iff.mp white with rfl | rfl | rfl <;> simp [entities]
    rw [asEntity]
    exact free _ listed
  · rw [asItself, List.mem_singleton]
    exact Ne.symm other

/-- An escaped text starts with a line feed just if the text does. -/
theorem head?_escape_eq_feed_iff (text : List Char) :
    (escape text).head? = some '\n' ↔ text.head? = some '\n' := by
  cases text with
  | nil => rfl
  | cons c rest =>
      change (escapeChar c ++ escape rest).head? = some '\n' ↔ (c :: rest).head? = some '\n'
      rcases escapeChar_cases c with ⟨name, listed, asEntity⟩ | ⟨-, asItself⟩
      · have noFeed : ∀ entry ∈ entities, entry.2 ≠ '\n' := by simp [entities]
        simp [asEntity, noFeed _ listed]
      · simp [asItself]

/-- An escaped text may stand in a document if the text may. -/
theorem isAllowed_escape {text : List Char} (allowed : text.all isAllowed) :
    (escape text).all isAllowed := by
  rw [escape, List.all_flatMap, List.all_eq_true]
  intro c member
  rcases escapeChar_cases c with ⟨name, entity, asEntity⟩ | ⟨-, asItself⟩
  · have inEntity : ∀ entry ∈ entities, ('&' :: entry.1 ++ [';']).all isAllowed := by
      decide
    rw [asEntity]
    exact inEntity _ entity
  · rw [asItself, List.all_cons, List.all_nil, Bool.and_true]
    exact List.all_eq_true.mp allowed c member

/-- Line ends are the same in the written form of a text. -/
theorem unifyLineEnds_escape (text : List Char) :
    unifyLineEnds (escape text) = escape (unifyLineEnds text) := by
  induction text with
  | nil => rfl
  | cons c rest ih =>
      change unifyLineEnds (escapeChar c ++ escape rest) = escape (unifyLineEnds (c :: rest))
      by_cases isReturn : c = '\r'
      · subst isReturn
        change unifyLineEnds ('\r' :: escape rest) = _
        simp only [unifyLineEnds, ↓reduceIte, head?_escape_eq_feed_iff, ih]
        split <;> rfl
      · rw [unifyLineEnds_append_of_not_mem (not_mem_escapeChar rfl isReturn), ih, unifyLineEnds,
          if_neg isReturn]
        rfl

/-- The value of a digit to a base. -/
def digitValue? (base : Nat) (c : Char) : Option Nat :=
  (if '0' ≤ c ∧ c ≤ '9' then some (c.toNat - '0'.toNat)
    else if 'a' ≤ c ∧ c ≤ 'f' then some (c.toNat - 'a'.toNat + 10)
    else if 'A' ≤ c ∧ c ≤ 'F' then some (c.toNat - 'A'.toNat + 10)
    else none).filter (· < base)

/-- The character whose number is written with the given digits. -/
def numbered? (base : Nat) (digits : List Char) : Option Char := do
  let number ← digits.foldlM (fun number c => (digitValue? base c).map (number * base + ·)) 0
  if ¬ digits.isEmpty ∧ number.isValidChar then
    (some (Char.ofNat number)).filter isAllowed
  else none

/-- The character that a reference stands for: one with a predefined entity, or any one by
its number. -/
def reference? (name : List Char) : Option Char :=
  (entities.lookup name).or
    (match name with
      | '#' :: 'x' :: digits => numbered? 16 digits
      | '#' :: digits => numbered? 10 digits
      | _ => none)

/-- A predefined entity is a reference to its character. -/
theorem reference?_of_lookup {name : List Char} {named : Char}
    (found : entities.lookup name = some named) : reference? name = some named := by
  simp only [reference?, found, Option.some_or]

/-- A text with its references expanded, inside a reference whose name has been read in
part or outside of references. -/
def expandFrom? : Option (List Char) → List Char → Option (List Char)
  | none, [] => some []
  | some _, [] => none
  | none, c :: rest =>
    if c = '&' then expandFrom? (some []) rest else (expandFrom? none rest).map (c :: ·)
  | some read, c :: rest =>
    if c = ';' then
      (reference? read).bind fun named => (expandFrom? none rest).map (named :: ·)
    else expandFrom? (some (read ++ [c])) rest

/-- The value of an attribute: white space counts as blanks, and references are
expanded. -/
def attributeValue? (written : List Char) : Option (List Char) :=
  expandFrom? none (written.map asBlank)

/-- Where the predefined entities are enough, a processor reads the same. -/
theorem expandFrom?_of_unescapeFrom? {place : Option (List Char)} {written text : List Char}
    (read : unescapeFrom? place written = some text) : expandFrom? place written = some text := by
  induction written generalizing place text with
  | nil => cases place <;> exact read
  | cons c rest ih =>
      cases place with
      | none =>
          simp only [unescapeFrom?, expandFrom?] at read ⊢
          split
          · rename_i starts
            rw [if_pos starts] at read
            exact ih read
          · rename_i plain
            rw [if_neg plain, Option.map_eq_some_iff] at read
            obtain ⟨others, readRest, rfl⟩ := read
            rw [ih readRest, Option.map_some]
      | some name =>
          simp only [unescapeFrom?, expandFrom?] at read ⊢
          split
          · rename_i ends
            rw [if_pos ends, Option.bind_eq_some_iff] at read
            obtain ⟨named, found, read⟩ := read
            obtain ⟨others, readRest, rfl⟩ := Option.map_eq_some_iff.mp read
            rw [reference?_of_lookup found, Option.bind_some, ih readRest, Option.map_some]
          · rename_i goesOn
            rw [if_neg goesOn] at read
            exact ih read

/-- A blank may stand for white space before or after a character is escaped. -/
theorem map_asBlank_escapeChar (c : Char) :
    (escapeChar c).map asBlank = escapeChar (asBlank c) := by
  by_cases white : isBreak c
  · rcases isBreak_iff.mp white with rfl | rfl | rfl <;> rfl
  · have kept : asBlank c = c := asBlank_of_not_isBreak (Bool.eq_false_iff.mpr white)
    rcases escapeChar_cases c with ⟨name, listed, asEntity⟩ | ⟨-, asItself⟩
    · have solid : ∀ entry ∈ entities,
          ('&' :: entry.1 ++ [';']).map asBlank = '&' :: entry.1 ++ [';'] := by
        decide
      rw [kept, asEntity, solid _ listed]
    · rw [kept, asItself, List.map_singleton, kept]

/-- Blanks may stand for white space before or after a text is escaped. -/
theorem map_asBlank_escape (text : List Char) :
    (escape text).map asBlank = escape (text.map asBlank) := by
  simp only [escape, List.map_flatMap, List.flatMap_map, map_asBlank_escapeChar]

/-- A processor reads the written form of a text as the text with blanks for white
space. -/
theorem attributeValue?_escape (text : List Char) :
    attributeValue? (escape text) = some (text.map asBlank) := by
  apply expandFrom?_of_unescapeFrom?
  rw [map_asBlank_escape]
  exact unescape?_escape _

-- A processor keeps a tab that is written by its number.
example : attributeValue? "a&#9;b&#x9;\tc".toList = some "a\tb\t c".toList := by
  decide

/-- What a processor makes of a text between writing and reading it. -/
def normalized (text : List Char) : List Char :=
  (unifyLineEnds text).map asBlank

/-- In a normalized text the blank is the only white space. -/
theorem isBreak_of_mem_normalized {text : List Char} {c : Char} (member : c ∈ normalized text) :
    isBreak c = false := by
  obtain ⟨d, -, rfl⟩ := List.mem_map.mp member
  exact isBreak_asBlank d

/-- A text whose only white space are blanks is normalized. -/
theorem normalized_of_solid {text : List Char} (solid : ∀ c ∈ text, isBreak c = false) :
    normalized text = text := by
  have free : '\r' ∉ text := fun member => Bool.noConfusion (solid '\r' member)
  have same : text.map asBlank = text.map id :=
    List.map_congr_left fun c member => asBlank_of_not_isBreak (solid c member)
  rw [normalized, unifyLineEnds_of_not_mem free, same, List.map_id]

/-- A text comes back as it was just if it has no tab, line feed or carriage return. -/
theorem normalized_eq_self_iff {text : List Char} :
    normalized text = text ↔ ∀ c ∈ text, isBreak c = false := by
  constructor
  · intro same c member
    rw [← same] at member
    exact isBreak_of_mem_normalized member
  · exact normalized_of_solid

/-- White space leaves a blank behind. -/
theorem blank_mem_normalized {text : List Char} (white : ∃ c ∈ text, isBreak c = true) :
    ' ' ∈ normalized text := by
  induction text with
  | nil => simp at white
  | cons c rest ih =>
      rw [normalized, unifyLineEnds]
      by_cases isReturn : c = '\r'
      · rw [if_pos isReturn]
        split
        · rename_i feed
          exact ih ⟨'\n', List.mem_of_mem_head? feed, rfl⟩
        · exact List.mem_cons_self
      · rw [if_neg isReturn, List.map_cons, List.mem_cons]
        by_cases here : isBreak c
        · exact .inl (if_pos here).symm
        · obtain ⟨d, member, isBreak⟩ := white
          rcases List.mem_cons.mp member with rfl | later
          · exact absurd isBreak here
          · exact .inr (ih ⟨d, later, isBreak⟩)

/-- No other text is taken for one without white space. -/
theorem normalized_eq_iff {text other : List Char}
    (solid : ∀ c ∈ other, c ≠ ' ' ∧ isBreak c = false) :
    normalized text = other ↔ text = other := by
  constructor
  · intro same
    have textSolid : ∀ c ∈ text, isBreak c = false := by
      intro c member
      rw [Bool.eq_false_iff]
      intro white
      have blank := blank_mem_normalized ⟨c, member, white⟩
      exact (solid ' ' (same ▸ blank)).1 rfl
    rw [← same, normalized_of_solid textSolid]
  · rintro rfl
    exact normalized_of_solid fun c member => (solid c member).2

/-- What a processor makes of a text between writing and reading it, as a text. -/
def normalizedText (text : String) : String :=
  String.ofList (normalized text.toList)

/-- No other text is normalized to one without white space. -/
theorem normalizedText_eq_iff {text other : String}
    (solid : ∀ c ∈ other.toList, c ≠ ' ' ∧ isBreak c = false) :
    normalizedText text = other ↔ text = other := by
  rw [normalizedText, ← String.toList_inj, String.toList_ofList, normalized_eq_iff solid,
    String.toList_inj]

/-- A text stays as it is just if the blank is its only white space. -/
theorem normalizedText_eq_self_iff {text : String} :
    normalizedText text = text ↔ ∀ c ∈ text.toList, isBreak c = false := by
  rw [normalizedText, ← String.toList_inj, String.toList_ofList, normalized_eq_self_iff]

end ConstraintFacets.Markup
