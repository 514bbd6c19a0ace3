import ConstraintFacets.Proofs.Fragment.Decoding
import ConstraintFacets.Proofs.Fragment.ValueNormalization

/-! # Documents as a processor reads them

A processor reads a document with characters that are allowed, after it has made its line
ends line feeds (`ConstraintFacets.Tag.process?`). Line ends are only in values, and in
front of lines; so a written document becomes the one with other values
(`ConstraintFacets.Tag.unifyLineEnds_document`). What the processor reads from it are the
tags, with what normalization leaves of each value
(`ConstraintFacets.Tag.process?_document`).
-/

namespace ConstraintFacets

open Markup

namespace Tag

/-- The tags that a processor finds in a document without character data. Every character
has to be allowed, and no tag may have two attributes of one name. -/
def process? (text : List Char) : Option (List Tag) :=
  if text.all isAllowed then
    (read? attributeValue? (unifyLineEnds text)).filter fun tags =>
      tags.all fun tag => (tag.entries.map Prod.fst).Nodup
  else none

/-- A text with a line feed for each line end. -/
def unifiedText (text : String) : String :=
  String.ofList (unifyLineEnds text.toList)

variable {tag : Tag} {tags : List Tag}

/-- Line ends are unified in the values of attributes, and nowhere else among them. -/
theorem unifyLineEnds_entries {entries : List (String × String)}
    (named : ∀ entry ∈ entries, isName entry.1.toList) (tail : List Char) :
    unifyLineEnds (entries.flatMap renderAttribute ++ tail) =
      (entries.map fun entry => (entry.1, unifiedText entry.2)).flatMap renderAttribute ++
        unifyLineEnds tail := by
  induction entries with
  | nil => rfl
  | cons entry rest ih =>
      rw [List.forall_mem_cons] at named
      have free : '\r' ∉ ' ' :: entry.1.toList ++ ['=', '"'] := by
        simpa using not_mem_of_isName named.1 rfl
      have split (value rest : List Char) :
          ' ' :: (entry.1.toList ++ '=' :: '"' :: (value ++ rest)) =
            (' ' :: entry.1.toList ++ ['=', '"']) ++ (value ++ rest) := by
        simp
      rw [List.flatMap_cons, List.append_assoc, renderAttribute_append, split,
        unifyLineEnds_append_of_not_mem free, unifyLineEnds_append_cons (by decide) (by decide),
        ih named.2, unifyLineEnds_escape, ← split, List.map_cons, List.flatMap_cons,
        List.append_assoc, renderAttribute_append, unifiedText, String.toList_ofList]

/-- To unify the line ends of a tag is to unify those of its values. -/
theorem unifyLineEnds_body (named : tag.IsWellNamed) :
    unifyLineEnds tag.body = (tag.mapValues unifiedText).body := by
  cases tag with
  | opening name entries =>
      have free : '\r' ∉ name.toList := not_mem_of_isName named.1 rfl
      have inside := unifyLineEnds_entries named.2 []
      rw [List.append_nil, unifyLineEnds, List.append_nil] at inside
      rw [body, unifyLineEnds_append_of_not_mem free, inside, mapValues, body]
  | closing name =>
      have free : '\r' ∉ '/' :: name.toList := by
        simpa using not_mem_of_isName named rfl
      rw [body, unifyLineEnds_of_not_mem free, mapValues, body]
  | empty name entries =>
      have free : '\r' ∉ name.toList := not_mem_of_isName named.1 rfl
      rw [body, unifyLineEnds_append_of_not_mem free, unifyLineEnds_entries named.2, mapValues,
        body]
      rfl

/-- No line end reaches over the end of a tag. -/
theorem unifyLineEnds_line (named : tag.IsWellNamed) (level : Nat) (rest : List Char) :
    unifyLineEnds (line level tag ++ rest) =
      line level (tag.mapValues unifiedText) ++ unifyLineEnds rest := by
  have free : '\r' ∉ List.replicate (2 * level) ' ' ++ ['<'] := by
    simp
  have split (tag : Tag) (rest : List Char) : line level tag ++ rest =
      (List.replicate (2 * level) ' ' ++ ['<']) ++ (tag.body ++ '>' :: rest) := by
    simp [line, render_eq]
  rw [split, unifyLineEnds_append_of_not_mem free,
    unifyLineEnds_append_cons (by decide) (by decide), unifyLineEnds_body named, ← split]

/-- To unify the line ends of lines is to unify those of their tags; the ends of the lines stay. -/
theorem unifyLineEnds_lines (named : ∀ tag ∈ tags, tag.IsWellNamed) (level : Nat) :
    unifyLineEnds (List.intercalate ['\n'] (lines level tags)) =
      List.intercalate ['\n'] (lines level (tags.map (mapValues unifiedText))) := by
  induction tags generalizing level with
  | nil => rfl
  | cons tag rest ih =>
      rw [List.forall_mem_cons] at named
      obtain ⟨around, inside, split⟩ := lines_cons_mapValues unifiedText level tag
      rw [List.map_cons, (split _).1, (split _).2]
      cases rest with
      | nil =>
          have alone := unifyLineEnds_line named.1 around []
          rw [List.append_nil, unifyLineEnds, List.append_nil] at alone
          rw [List.map_nil, lines, List.intercalate_singleton, List.intercalate_singleton]
          exact alone
      | cons next others =>
          -- The line feed between the lines is no part of a line end: `>` comes before it.
          have below := ih named.2 inside
          obtain ⟨_, _, splitRest⟩ := lines_cons_mapValues unifiedText inside next
          rw [List.map_cons, (splitRest _).1, (splitRest _).2] at below ⊢
          rw [List.intercalate_cons_cons, List.intercalate_cons_cons, List.append_assoc,
            unifyLineEnds_line named.1, List.append_assoc, List.singleton_append, unifyLineEnds,
            if_neg (by decide), below]
          rfl

/-- To unify the line ends of a document is to unify those of the values in it. -/
theorem unifyLineEnds_document (named : ∀ tag ∈ tags, tag.IsWellNamed) :
    unifyLineEnds (document tags) = document (tags.map (mapValues unifiedText)) :=
  unifyLineEnds_lines named 0

theorem isAllowed_of_isName {name : List Char} (named : isName name) : name.all isAllowed := by
  rw [isName, Bool.and_eq_true, List.all_eq_true] at named
  rw [List.all_eq_true]
  intro c member
  have either := named.2 c member
  rw [Bool.or_eq_true, beq_iff_eq] at either
  rcases either with letter | rfl
  · rw [isAlpha_iff_toNat] at letter
    exact isAllowed_of_printable (by omega) (by omega)
  · rfl

theorem isAllowed_entries {entries : List (String × String)}
    (named : ∀ entry ∈ entries, isName entry.1.toList)
    (allowed : ∀ entry ∈ entries, entry.2.toList.all isAllowed) :
    (entries.flatMap renderAttribute).all isAllowed := by
  have marks : isAllowed ' ' ∧ isAllowed '=' ∧ isAllowed '"' := ⟨rfl, rfl, rfl⟩
  rw [List.all_flatMap, List.all_eq_true]
  intro entry member
  simp only [renderAttribute, List.all_append, List.all_cons, List.all_nil, marks,
    isAllowed_of_isName (named entry member), isAllowed_escape (allowed entry member),
    Bool.and_self]

theorem isAllowed_body (named : tag.IsWellNamed)
    (allowed : ∀ entry ∈ tag.entries, entry.2.toList.all isAllowed) :
    tag.body.all isAllowed := by
  have slash : isAllowed '/' := rfl
  cases tag with
  | closing name => simp [body, slash, isAllowed_of_isName named]
  | opening name entries =>
      simp only [body, List.all_append, isAllowed_of_isName named.1,
        isAllowed_entries named.2 allowed, Bool.and_self]
  | empty name entries =>
      simp only [body, List.all_append, isAllowed_of_isName named.1, List.all_cons, List.all_nil,
        slash, isAllowed_entries named.2 allowed, Bool.and_self]

theorem isAllowed_line (named : tag.IsWellNamed)
    (allowed : ∀ entry ∈ tag.entries, entry.2.toList.all isAllowed) (level : Nat) :
    (line level tag).all isAllowed := by
  have marks : isAllowed ' ' ∧ isAllowed '<' ∧ isAllowed '>' := ⟨rfl, rfl, rfl⟩
  simp [line, render_eq, marks, isAllowed_body named allowed]

theorem isAllowed_lines (named : ∀ tag ∈ tags, tag.IsWellNamed)
    (allowed : ∀ tag ∈ tags, ∀ entry ∈ tag.entries, entry.2.toList.all isAllowed) (level : Nat) :
    (List.intercalate ['\n'] (lines level tags)).all isAllowed := by
  induction tags generalizing level with
  | nil => rfl
  | cons tag rest ih =>
      rw [List.forall_mem_cons] at named allowed
      obtain ⟨around, inside, split⟩ := lines_cons level tag rest
      have here := isAllowed_line named.1 allowed.1 around
      rw [split]
      cases rest with
      | nil =>
          rw [lines, List.intercalate_singleton]
          exact here
      | cons next others =>
          have below := ih named.2 allowed.2 inside
          obtain ⟨_, _, splitRest⟩ := lines_cons inside next others
          rw [splitRest] at below ⊢
          rw [List.intercalate_cons_cons, List.all_append, List.all_append, here, below]
          rfl

/-- A text with blanks for white space. -/
def blankText (text : String) : String :=
  String.ofList (text.toList.map asBlank)

/-- Normalization is to unify the line ends and then to take blanks for white space. -/
theorem normalizedText_eq : normalizedText = blankText ∘ unifiedText := by
  funext text
  simp [normalizedText, normalized, blankText, unifiedText]

/-- **What a processor reads.** From a written document a processor obtains the tags with
the values that normalization leaves of theirs. -/
theorem process?_document (named : ∀ tag ∈ tags, tag.IsWellNamed)
    (distinct : ∀ tag ∈ tags, (tag.entries.map Prod.fst).Nodup)
    (allowed : ∀ tag ∈ tags, ∀ entry ∈ tag.entries, entry.2.toList.all isAllowed) :
    process? (document tags) = some (tags.map (mapValues normalizedText)) := by
  have namedUnified : ∀ tag ∈ tags.map (mapValues unifiedText), tag.IsWellNamed := by
    rw [List.forall_mem_map]
    exact fun tag member => isWellNamed_mapValues unifiedText (named tag member)
  -- Line ends are made line feeds before the tags are found, references expanded after it.
  have held : ∀ tag ∈ tags.map (mapValues unifiedText), ∀ entry ∈ tag.entries,
      attributeValue? (escape entry.2.toList) = some (blankText entry.2).toList := by
    intro tag _ entry _
    rw [attributeValue?_escape, blankText, String.toList_ofList]
  have read := read?_document_mapValues attributeValue? blankText namedUnified held
  have same : (tags.map (mapValues unifiedText)).map (mapValues blankText) =
      tags.map (mapValues normalizedText) := by
    simp only [List.map_map, Function.comp_def, mapValues_mapValues, normalizedText_eq]
  have apart : ∀ tag ∈ tags.map (mapValues normalizedText), (tag.entries.map Prod.fst).Nodup := by
    rw [List.forall_mem_map]
    intro tag member
    rw [entries_mapValues, List.map_map]
    exact distinct tag member
  rw [process?, document, isAllowed_lines named allowed, if_pos rfl, ← document,
    unifyLineEnds_document named, read, same]
  simpa [Option.filter_eq_some_iff] using apart

end Tag

end ConstraintFacets
