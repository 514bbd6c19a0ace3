import ConstraintFacets.Markup

/-! # Reading tags back

A plain reader of documents without character data splits a text at its angle
brackets, takes the attributes of every tag apart, and replaces the five
predefined entities in the values (`ConstraintFacets.Tag.read?`). It reads from a
written document exactly the tags that were written
(`ConstraintFacets.Tag.read?_document`), whatever the values are: escaping leaves
no character in a value that could end it. How values are read is a parameter of
the reader, so that other rules for values can be put in its place; one that reads other
values than were written gives the same tags with those
(`ConstraintFacets.Tag.read?_document_mapValues`).
-/

namespace ConstraintFacets

namespace Markup

/-- The predefined entities. -/
def entities : List (List Char × Char) :=
  [(['l', 't'], '<'), (['g', 't'], '>'), (['a', 'm', 'p'], '&'), (['a', 'p', 'o', 's'], '\''),
   (['q', 'u', 'o', 't'], '"')]

/-- The text of a value, inside an entity whose name has been read in part or
outside of entities. -/
def unescapeFrom? : Option (List Char) → List Char → Option (List Char)
  | none, [] => some []
  | some _, [] => none
  | none, c :: rest =>
    if c = '&' then unescapeFrom? (some []) rest else (unescapeFrom? none rest).map (c :: ·)
  | some read, c :: rest =>
    if c = ';' then
      (entities.lookup read).bind fun named => (unescapeFrom? none rest).map (named :: ·)
    else unescapeFrom? (some (read ++ [c])) rest

/-- A value with its entities replaced. -/
def unescape? (value : List Char) : Option (List Char) :=
  unescapeFrom? none value

/-- A character with an entity is written as the entity, every other one as
itself. -/
theorem escapeChar_cases (c : Char) :
    (∃ name, (name, c) ∈ entities ∧ escapeChar c = '&' :: name ++ [';']) ∨
      (c ∉ entities.map Prod.snd ∧ escapeChar c = [c]) := by
  by_cases special : c ∈ entities.map Prod.snd
  · have written : ∀ entry ∈ entities, escapeChar entry.2 = '&' :: entry.1 ++ [';'] := by
      simp [entities, escapeChar]
    obtain ⟨⟨name, named⟩, listed, rfl⟩ := List.mem_map.mp special
    exact .inl ⟨name, listed, written _ listed⟩
  · refine .inr ⟨special, ?_⟩
    simp only [entities, List.map_cons, List.map_nil, List.mem_cons, List.not_mem_nil, or_false,
      not_or] at special
    obtain ⟨less, greater, ampersand, apostrophe, quote⟩ := special
    rw [escapeChar, if_neg less, if_neg greater, if_neg ampersand, if_neg apostrophe, if_neg quote]

/-- Inside an entity everything up to the semicolon belongs to its name. -/
theorem unescapeFrom?_append (read name rest : List Char) (free : ';' ∉ name) :
    unescapeFrom? (some read) (name ++ ';' :: rest) =
      (entities.lookup (read ++ name)).bind fun named =>
        (unescapeFrom? none rest).map (named :: ·) := by
  induction name generalizing read with
  | nil => rw [List.nil_append, List.append_nil, unescapeFrom?, if_pos rfl]
  | cons c others ih =>
      rw [List.mem_cons, not_or] at free
      rw [List.cons_append, unescapeFrom?, if_neg (Ne.symm free.1), ih _ free.2,
        List.append_assoc, List.singleton_append]

/-- The escaped form of a character is read as that character. -/
theorem unescapeFrom?_escapeChar (c : Char) (rest : List Char) :
    unescapeFrom? none (escapeChar c ++ rest) = (unescapeFrom? none rest).map (c :: ·) := by
  rcases escapeChar_cases c with ⟨name, listed, written⟩ | ⟨plain, written⟩
  · have named : ∀ entry ∈ entities, entities.lookup entry.1 = some entry.2 := by
      simp [entities, List.lookup_cons]
    have free : ∀ entry ∈ entities, ';' ∉ entry.1 := by simp [entities]
    rw [written, List.append_assoc, List.cons_append, unescapeFrom?, if_pos rfl,
      List.singleton_append, unescapeFrom?_append _ _ _ (free _ listed), List.nil_append,
      named _ listed, Option.bind_some]
  · have notAmpersand : c ≠ '&' := by
      rintro rfl
      exact plain (by simp [entities])
    rw [written, List.singleton_append, unescapeFrom?, if_neg notAmpersand]

/-- An escaped text is read as that text. -/
theorem unescape?_escape (text : List Char) : unescape? (escape text) = some text := by
  unfold unescape?
  induction text with
  | nil => rfl
  | cons c rest ih =>
      change unescapeFrom? none (escapeChar c ++ escape rest) = some (c :: rest)
      rw [unescapeFrom?_escapeChar, ih, Option.map_some]

/-- No entity has one of the marks in it that end tags and values. -/
theorem not_mem_entity :
    ∀ entry ∈ entities, ∀ mark ∈ ['<', '>', '"'], mark ∉ '&' :: entry.1 ++ [';'] := by
  simp [entities]

/-- Escaping leaves no angle bracket and no quote in a value. -/
theorem not_mem_escape {mark : Char} (isMark : mark ∈ ['<', '>', '"']) (text : List Char) :
    mark ∉ escape text := by
  rw [escape, List.mem_flatMap]
  rintro ⟨c, _, written⟩
  rcases escapeChar_cases c with ⟨name, listed, asEntity⟩ | ⟨plain, asItself⟩
  · rw [asEntity] at written
    exact not_mem_entity _ listed mark isMark written
  · have special : ∀ mark ∈ ['<', '>', '"'], mark ∈ entities.map Prod.snd := by
      simp [entities]
    rw [asItself, List.mem_singleton] at written
    exact plain (written ▸ special mark isMark)

/-- Where a reader stands behind the name of an element. -/
inductive AttributePlace where
  /-- Between two attributes. -/
  | between
  /-- In the name of an attribute. -/
  | name (read : List Char)
  /-- Behind the name and the equals sign. -/
  | equals (name : List Char)
  /-- In the value of an attribute. -/
  | value (name read : List Char)

/-- The attributes in the rest of a tag, and whether the tag ends its element. -/
def attributesFrom? (value? : List Char → Option (List Char)) :
    AttributePlace → List Char → Option (List (String × String) × Bool)
  | .between, [] => some ([], false)
  | _, [] => none
  | .between, c :: rest =>
    if c = ' ' then attributesFrom? value? (.name []) rest
    else if c = '/' ∧ rest = [] then some ([], true)
    else none
  | .name read, c :: rest =>
    if c = '=' then attributesFrom? value? (.equals read) rest
    else attributesFrom? value? (.name (read ++ [c])) rest
  | .equals name, c :: rest =>
    if c = '"' then attributesFrom? value? (.value name []) rest else none
  | .value name read, c :: rest =>
    if c = '"' then do
      let value ← value? read
      let (others, ends) ← attributesFrom? value? .between rest
      some ((String.ofList name, String.ofList value) :: others, ends)
    else attributesFrom? value? (.value name (read ++ [c])) rest

/-- Whether a text is a name of letters and colons. -/
def isName (text : List Char) : Bool :=
  !text.isEmpty && text.all fun c => c.isAlpha || c == ':'

theorem ne_nil_of_isName {text : List Char} (named : isName text) : text ≠ [] := by
  rintro rfl
  cases named

theorem not_mem_of_isName {text : List Char} (named : isName text) {mark : Char}
    (noName : (mark.isAlpha || mark == ':') = false) : mark ∉ text := by
  intro member
  rw [isName, Bool.and_eq_true, List.all_eq_true] at named
  rw [named.2 mark member] at noName
  cases noName

section Attributes

variable (value? : List Char → Option (List Char))

/-- Everything up to the equals sign belongs to the name of an attribute. -/
theorem attributesFrom?_name (read name rest : List Char) (free : '=' ∉ name) :
    attributesFrom? value? (.name read) (name ++ '=' :: rest) =
      attributesFrom? value? (.equals (read ++ name)) rest := by
  induction name generalizing read with
  | nil => rw [List.nil_append, List.append_nil, attributesFrom?, if_pos rfl]
  | cons c others ih =>
      rw [List.mem_cons, not_or] at free
      rw [List.cons_append, attributesFrom?, if_neg (Ne.symm free.1), ih _ free.2,
        List.append_assoc, List.singleton_append]

/-- Everything up to the closing quote belongs to the value of an attribute. -/
theorem attributesFrom?_value (name read value rest : List Char) (free : '"' ∉ value) :
    attributesFrom? value? (.value name read) (value ++ '"' :: rest) =
      (do
        let held ← value? (read ++ value)
        let (others, ends) ← attributesFrom? value? .between rest
        some ((String.ofList name, String.ofList held) :: others, ends)) := by
  induction value generalizing read with
  | nil => rw [List.nil_append, List.append_nil, attributesFrom?, if_pos rfl]
  | cons c others ih =>
      rw [List.mem_cons, not_or] at free
      rw [List.cons_append, attributesFrom?, if_neg (Ne.symm free.1), ih _ free.2,
        List.append_assoc, List.singleton_append]

/-- An attribute with its marks spelled out, for a reader that goes through them. -/
theorem renderAttribute_append (entry : String × String) (rest : List Char) :
    renderAttribute entry ++ rest =
      ' ' :: (entry.1.toList ++ '=' :: '"' :: (escape entry.2.toList ++ '"' :: rest)) := by
  simp [renderAttribute]

/-- The attributes of a tag are read as they were written, with the values that are read
from the written ones. -/
theorem attributesFrom?_entries {entries : List (String × String)} (rule : String → String)
    (named : ∀ entry ∈ entries, isName entry.1.toList)
    (held : ∀ entry ∈ entries, value? (escape entry.2.toList) = some (rule entry.2).toList)
    (tail : List Char) {ends : Bool}
    (last : attributesFrom? value? .between tail = some ([], ends)) :
    attributesFrom? value? .between (entries.flatMap renderAttribute ++ tail) =
      some (entries.map fun entry => (entry.1, rule entry.2), ends) := by
  induction entries with
  | nil => exact last
  | cons entry rest ih =>
      rw [List.forall_mem_cons] at named held
      have noEquals : '=' ∉ entry.1.toList := not_mem_of_isName named.1 rfl
      have noQuote : '"' ∉ escape entry.2.toList := not_mem_escape (by simp) _
      rw [List.flatMap_cons, List.append_assoc, renderAttribute_append, attributesFrom?, if_pos rfl,
        attributesFrom?_name _ _ _ _ noEquals, List.nil_append, attributesFrom?, if_pos rfl,
        attributesFrom?_value _ _ _ _ _ noQuote, List.nil_append, held.1, ih named.2 held.2]
      simp

end Attributes

end Markup

namespace Tag

open Markup

/-- The characters of a tag between its angle brackets. -/
def body : Tag → List Char
  | opening name entries => name.toList ++ entries.flatMap renderAttribute
  | closing name => '/' :: name.toList
  | empty name entries => name.toList ++ (entries.flatMap renderAttribute ++ ['/'])

theorem render_eq (tag : Tag) : tag.render = '<' :: (tag.body ++ ['>']) := by
  cases tag <;> simp [render, body]

/-- The tag with the given characters between its angle brackets. -/
def ofBody? (value? : List Char → Option (List Char)) : List Char → Option Tag
  | '/' :: name => some (closing (String.ofList name))
  | text =>
    let name := text.takeWhile fun c => c ≠ ' ' ∧ c ≠ '/'
    let rest := text.dropWhile fun c => c ≠ ' ' ∧ c ≠ '/'
    (attributesFrom? value? .between rest).map fun (entries, ends) =>
      if ends then empty (String.ofList name) entries else opening (String.ofList name) entries

/-- The names in a tag are made of letters and colons. -/
def IsWellNamed : Tag → Prop
  | opening name entries | empty name entries =>
    isName name.toList ∧ ∀ entry ∈ entries, isName entry.1.toList
  | closing name => isName name.toList

/-- The attributes of a tag. -/
def entries : Tag → List (String × String)
  | opening _ entries | empty _ entries => entries
  | closing _ => []

/-- A tag with other values for its attributes. -/
def mapValues (rule : String → String) : Tag → Tag
  | opening name entries => opening name (entries.map fun entry => (entry.1, rule entry.2))
  | closing name => closing name
  | empty name entries => empty name (entries.map fun entry => (entry.1, rule entry.2))

theorem mapValues_id : mapValues id = id := by
  funext tag
  cases tag <;> simp [mapValues]

theorem isWellNamed_mapValues (rule : String → String) {tag : Tag} (named : tag.IsWellNamed) :
    (tag.mapValues rule).IsWellNamed := by
  cases tag with
  | closing name => exact named
  | opening name entries | empty name entries =>
      refine ⟨named.1, fun entry member => ?_⟩
      obtain ⟨original, listed, rfl⟩ := List.mem_map.mp member
      exact named.2 original listed

theorem entries_mapValues (rule : String → String) (tag : Tag) :
    (tag.mapValues rule).entries = tag.entries.map fun entry => (entry.1, rule entry.2) := by
  cases tag <;> rfl

theorem mapValues_mapValues (first second : String → String) (tag : Tag) :
    (tag.mapValues first).mapValues second = tag.mapValues (second ∘ first) := by
  cases tag <;> simp [mapValues]

section Reading

variable (value? : List Char → Option (List Char))

/-- The name of a tag ends at a blank or at the mark that ends the element. -/
theorem ofBody?_append {name rest : List Char} (named : isName name)
    (starts : ∀ c ∈ rest.head?, c = ' ' ∨ c = '/') :
    ofBody? value? (name ++ rest) =
      (attributesFrom? value? .between rest).map fun (entries, ends) =>
        if ends then empty (String.ofList name) entries
        else opening (String.ofList name) entries := by
  have inName : ∀ c ∈ name, decide (c ≠ ' ' ∧ c ≠ '/') = true := by
    intro c member
    rw [decide_eq_true_eq]
    constructor
    · rintro rfl
      exact not_mem_of_isName named rfl member
    · rintro rfl
      exact not_mem_of_isName named rfl member
  have behind : rest.takeWhile (fun c => decide (c ≠ ' ' ∧ c ≠ '/')) = [] ∧
      rest.dropWhile (fun c => decide (c ≠ ' ' ∧ c ≠ '/')) = rest := by
    cases rest with
    | nil => exact ⟨rfl, rfl⟩
    | cons c others =>
        have isMark : ¬ (c ≠ ' ' ∧ c ≠ '/') := by
          rcases starts c rfl with rfl | rfl <;> simp
        simp [isMark]
  unfold ofBody?
  split
  · rename_i closed isClosing
    obtain ⟨head, others, rfl⟩ := List.exists_cons_of_ne_nil (ne_nil_of_isName named)
    cases isClosing
    exact absurd List.mem_cons_self (not_mem_of_isName named rfl)
  · rw [List.takeWhile_append_of_pos inName, List.dropWhile_append_of_pos inName, behind.1,
      behind.2, List.append_nil]

/-- Attributes start with a blank, and without any the mark that ends the element comes first. -/
theorem head?_renderAttributes (entries : List (String × String)) (tail : List Char)
    (starts : ∀ c ∈ tail.head?, c = '/') :
    ∀ c ∈ (entries.flatMap renderAttribute ++ tail).head?, c = ' ' ∨ c = '/' := by
  cases entries with
  | nil =>
      intro c member
      apply Or.inr
      exact starts c member
  | cons entry rest =>
      intro c member
      rw [List.flatMap_cons, List.append_assoc, renderAttribute_append] at member
      cases member
      exact .inl rfl

/-- A tag is read back from its body, with its values as the rule has them. -/
theorem ofBody?_body {tag : Tag} (rule : String → String) (named : tag.IsWellNamed)
    (held : ∀ entry ∈ tag.entries, value? (escape entry.2.toList) = some (rule entry.2).toList) :
    ofBody? value? tag.body = some (tag.mapValues rule) := by
  cases tag with
  | closing name => simp [body, ofBody?, mapValues]
  | opening name entries =>
      have read := attributesFrom?_entries value? rule named.2 held [] rfl
      rw [List.append_nil] at read
      have starts := head?_renderAttributes entries [] (by simp)
      rw [List.append_nil] at starts
      rw [body, ofBody?_append value? named.1 starts, read]
      simp [mapValues]
  | empty name entries =>
      have read := attributesFrom?_entries value? rule named.2 held ['/'] rfl
      have starts := head?_renderAttributes entries ['/'] (by simp)
      rw [body, ofBody?_append value? named.1 starts, read]
      simp [mapValues]

end Reading

/-- The characters that may stand between tags. -/
def isSpace (c : Char) : Bool :=
  c = ' ' ∨ c = '\t' ∨ c = '\n' ∨ c = '\r'

/-- The characters between the angle brackets of each tag of a text, inside a tag
that has been read in part or outside of tags. -/
def bodies? : Option (List Char) → List Char → Option (List (List Char))
  | none, [] => some []
  | some _, [] => none
  | none, c :: rest =>
    if c = '<' then bodies? (some []) rest
    else if isSpace c then bodies? none rest
    else none
  | some read, c :: rest =>
    if c = '>' then (bodies? none rest).map (read :: ·) else bodies? (some (read ++ [c])) rest

/-- The tags of a document, read with a rule for the values of attributes. -/
def read? (value? : List Char → Option (List Char)) (text : List Char) : Option (List Tag) :=
  (bodies? none text).bind fun bodies => bodies.mapM (ofBody? value?)

/-- Inside a tag everything up to the closing bracket belongs to its body. -/
theorem bodies?_append (read body rest : List Char) (free : '>' ∉ body) :
    bodies? (some read) (body ++ '>' :: rest) = (bodies? none rest).map ((read ++ body) :: ·) := by
  induction body generalizing read with
  | nil => rw [List.nil_append, List.append_nil, bodies?, if_pos rfl]
  | cons c others ih =>
      rw [List.mem_cons, not_or] at free
      rw [List.cons_append, bodies?, if_neg (Ne.symm free.1), ih _ free.2, List.append_assoc,
        List.singleton_append]

theorem bodies?_blanks (count : Nat) (rest : List Char) :
    bodies? none (List.replicate count ' ' ++ rest) = bodies? none rest := by
  induction count with
  | zero => rfl
  | succ count ih => exact ih

/-- No closing bracket stands among attributes: those in values are escaped. -/
theorem not_mem_entries {entries : List (String × String)}
    (named : ∀ entry ∈ entries, isName entry.1.toList) :
    '>' ∉ entries.flatMap renderAttribute := by
  rw [List.mem_flatMap]
  rintro ⟨entry, listed, member⟩
  have inName : '>' ∉ entry.1.toList := not_mem_of_isName (named entry listed) rfl
  have inValue : '>' ∉ escape entry.2.toList := not_mem_escape (by simp) _
  rw [← List.append_nil (renderAttribute entry), renderAttribute_append] at member
  simp [inName, inValue] at member

/-- No closing bracket stands in the body of a tag. -/
theorem not_mem_body {tag : Tag} (named : tag.IsWellNamed) : '>' ∉ tag.body := by
  cases tag with
  | opening name entries =>
      have inName : '>' ∉ name.toList := not_mem_of_isName named.1 rfl
      simp [body, inName, not_mem_entries named.2]
  | closing name =>
      have inName : '>' ∉ name.toList := not_mem_of_isName named rfl
      simp [body, inName]
  | empty name entries =>
      have inName : '>' ∉ name.toList := not_mem_of_isName named.1 rfl
      simp [body, inName, not_mem_entries named.2]

/-- Of a line the body of its tag is read. -/
theorem bodies?_line {tag : Tag} (named : tag.IsWellNamed) (level : Nat) (rest : List Char) :
    bodies? none (line level tag ++ rest) = (bodies? none rest).map (tag.body :: ·) := by
  rw [line, render_eq, List.append_assoc, bodies?_blanks, List.cons_append, bodies?, if_pos rfl,
    List.append_assoc, List.singleton_append, bodies?_append _ _ _ (not_mem_body named),
    List.nil_append]

/-- Whatever the first tag is, it is on a line of its own, before the lines of the
others. The places of the lines do not depend on its values. -/
theorem lines_cons_mapValues (rule : String → String) (level : Nat) (tag : Tag) :
    ∃ around inside, ∀ rest,
      lines level (tag :: rest) = line around tag :: lines inside rest ∧
      lines level (tag.mapValues rule :: rest) =
        line around (tag.mapValues rule) :: lines inside rest := by
  cases tag with
  | opening name entries => exact ⟨level, level + 1, fun rest => ⟨rfl, rfl⟩⟩
  | closing name => exact ⟨level - 1, level - 1, fun rest => ⟨rfl, rfl⟩⟩
  | empty name entries => exact ⟨level, level, fun rest => ⟨rfl, rfl⟩⟩

/-- The first line holds the first tag, and the others follow on some level. -/
theorem lines_cons (level : Nat) (tag : Tag) (rest : List Tag) :
    ∃ around inside, lines level (tag :: rest) = line around tag :: lines inside rest := by
  obtain ⟨around, inside, split⟩ := lines_cons_mapValues id level tag
  exact ⟨around, inside, (split rest).1⟩

/-- Of the lines of tags their bodies are read, in order. -/
theorem bodies?_lines {tags : List Tag} (named : ∀ tag ∈ tags, tag.IsWellNamed) (level : Nat) :
    bodies? none (List.intercalate ['\n'] (lines level tags)) = some (tags.map body) := by
  induction tags generalizing level with
  | nil => rfl
  | cons tag rest ih =>
      rw [List.forall_mem_cons] at named
      obtain ⟨around, inside, split⟩ := lines_cons level tag rest
      rw [split]
      cases rest with
      | nil =>
          rw [lines, List.intercalate_singleton, ← List.append_nil (line around tag),
            bodies?_line named.1]
          rfl
      | cons next others =>
          have below := ih named.2 inside
          obtain ⟨_, _, splitRest⟩ := lines_cons inside next others
          rw [splitRest] at below ⊢
          rw [List.intercalate_cons_cons, List.append_assoc, bodies?_line named.1,
            List.singleton_append, bodies?, if_neg (by decide), if_pos (by decide), below]
          rfl

/-- If the rule for values reads other values from those of a list of tags, then the tags
with these values are read from the document. -/
theorem read?_document_mapValues (value? : List Char → Option (List Char))
    (rule : String → String) {tags : List Tag} (named : ∀ tag ∈ tags, tag.IsWellNamed)
    (held : ∀ tag ∈ tags, ∀ entry ∈ tag.entries,
      value? (escape entry.2.toList) = some (rule entry.2).toList) :
    read? value? (document tags) = some (tags.map (mapValues rule)) := by
  have bodiesRead : (tags.map body).mapM (ofBody? value?) = some (tags.map (mapValues rule)) := by
    induction tags with
    | nil => rfl
    | cons tag rest ih =>
        rw [List.forall_mem_cons] at named held
        rw [List.map_cons, List.mapM_cons, ofBody?_body value? rule named.1 held.1,
          ih named.2 held.2]
        rfl
  rw [read?, document, bodies?_lines named, Option.bind_some, bodiesRead]

/-- **Written documents are read back.** If the rule for values reads every value of
a list of tags from its written form, then the tags are read from their document. -/
theorem read?_document (value? : List Char → Option (List Char)) {tags : List Tag}
    (named : ∀ tag ∈ tags, tag.IsWellNamed)
    (held : ∀ tag ∈ tags, ∀ entry ∈ tag.entries,
      value? (escape entry.2.toList) = some entry.2.toList) :
    read? value? (document tags) = some tags := by
  rw [read?_document_mapValues value? id named held, mapValues_id, List.map_id]

end Tag

end ConstraintFacets
