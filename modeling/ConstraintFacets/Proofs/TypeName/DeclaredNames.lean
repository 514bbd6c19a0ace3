import ConstraintFacets.Proofs.TypeName.Erasure

/-! # The names of declared types

A declared type is named by identifiers between dots that are no keyword of a primitive
type. The name may stand between blanks, with type arguments behind it
(`ConstraintFacets.TypeName.Spelling.Declares`). Spellings of this form, and no others, are
classified as declared, and erasing the type arguments between the blanks gives the name
(`ConstraintFacets.TypeName.isDeclared_iff_declares`).
-/

namespace ConstraintFacets

namespace TypeName

namespace Spelling

/-- A letter, an underscore or a dollar sign. -/
def Begins (c : Char) : Prop :=
  'A' ≤ c ∧ c ≤ 'Z' ∨ 'a' ≤ c ∧ c ≤ 'z' ∨ c = '_' ∨ c = '$'

/-- A character that may follow in an identifier is one that may begin it, or a digit. -/
def Continues (c : Char) : Prop :=
  Begins c ∨ '0' ≤ c ∧ c ≤ '9'

/-- A character that begins a name, and others that continue it. -/
inductive Identifier : List Char → Prop where
  | mk {first : Char} {rest : List Char} (begins : Begins first)
      (continues : ∀ c ∈ rest, Continues c) : Identifier (first :: rest)

/-- One or more identifiers with a dot between each and the next. -/
def Qualified (name : List Char) : Prop :=
  ∃ identifiers, identifiers ≠ [] ∧ (∀ identifier ∈ identifiers, Identifier identifier) ∧
    name = ['.'].intercalate identifiers

/-- A spelling consists of a name of a declared type, blanks around it, and type arguments,
which are nothing or start with their bracket. -/
def Declares (spelling name arguments : List Char) : Prop :=
  ∃ before behind, spelling = before ++ name ++ behind ++ arguments ∧
    (∀ c ∈ before, Blank.isBlank c) ∧ (∀ c ∈ behind, Blank.isBlank c) ∧
    Qualified name ∧ String.ofList name ∉ primitives ∧
    (arguments = [] ∨ ∃ rest, arguments = '<' :: rest)

variable {c : Char} {spelling name : List Char}

/-- An identifier starts with a letter, an underscore or a dollar sign. -/
theorem isIdentifierStart_iff : isIdentifierStart c = true ↔ Begins c := by
  rw [isIdentifierStart, Begins, Bool.or_eq_true, Bool.or_eq_true, isAlpha_iff_toNat, beq_iff_eq,
    beq_iff_eq, or_assoc, or_assoc]
  rfl

/-- Digits may follow in an identifier as well. -/
theorem isIdentifierPart_iff : isIdentifierPart c = true ↔ Continues c := by
  rw [isIdentifierPart, Continues, Bool.or_eq_true, isIdentifierStart_iff, Char.isDigit_iff_toNat]
  rfl

/-- The test for identifiers accepts just these. -/
theorem isIdentifier_iff : isIdentifier name = true ↔ Identifier name := by
  constructor
  · intro isIdentifier
    cases name with
    | nil => cases isIdentifier
    | cons first rest =>
      rw [Spelling.isIdentifier, Bool.and_eq_true, List.all_eq_true] at isIdentifier
      refine .mk (isIdentifierStart_iff.mp isIdentifier.1) fun c member => ?_
      exact isIdentifierPart_iff.mp (isIdentifier.2 c member)
  · rintro ⟨begins, continues⟩
    rw [Spelling.isIdentifier, Bool.and_eq_true, List.all_eq_true]
    refine ⟨isIdentifierStart_iff.mpr begins, fun c member => ?_⟩
    exact isIdentifierPart_iff.mpr (continues c member)

/-- The segments of a spelling are what stands between its dots. -/
theorem segments_eq_splitOn (spelling : List Char) : segments spelling = spelling.splitOn '.' := by
  induction spelling with
  | nil => rfl
  | cons c rest ih =>
    rw [segments, List.splitOn_cons_eq_if_modifyHead, ih]
    by_cases isDot : c = '.'
    · simp [isDot]
    · obtain ⟨first, others, split⟩ := List.exists_cons_of_ne_nil (List.splitOn_ne_nil '.' rest)
      simp [isDot, split]

/-- Neither a blank nor a mark of type arguments, arrays or segments stands in an identifier. -/
theorem Continues.isSolid (continues : Continues c) :
    ¬ Blank.isBlank c ∧ c ≠ '<' ∧ c ≠ ']' ∧ c ≠ '.' := by
  have range : c.toNat = 36 ∨ 48 ≤ c.toNat ∧ c.toNat ≤ 57 ∨ 65 ≤ c.toNat ∧ c.toNat ≤ 90 ∨
      c.toNat = 95 ∨ 97 ≤ c.toNat ∧ c.toNat ≤ 122 := by
    rcases continues with (upper | lower | rfl | rfl) | digit
    · exact .inr (.inr (.inl upper))
    · exact .inr (.inr (.inr (.inr lower)))
    · decide
    · decide
    · exact .inr (.inl digit)
  refine ⟨?_, ?_, ?_, ?_⟩
  · simp only [Blank.isBlank, Blank.ranges, List.any_cons, List.any_nil, Bool.or_eq_true,
      Bool.and_eq_true, decide_eq_true_eq, Bool.false_eq_true, or_false]
    omega
  all_goals
    rintro rfl
    revert range
    decide

/-- Every character of an identifier may follow in one, the first one too. -/
theorem Identifier.continues (identifier : Identifier name) : ∀ c ∈ name, Continues c := by
  obtain ⟨begins, continues⟩ := identifier
  exact List.forall_mem_cons.mpr ⟨.inl begins, continues⟩

/-- What stands between the dots is identifiers just if the spelling is a qualified name. -/
theorem all_isIdentifier_segments_iff :
    (segments spelling).all isIdentifier = true ↔ Qualified spelling := by
  simp only [segments_eq_splitOn, List.all_eq_true, isIdentifier_iff]
  constructor
  · intro identifiers
    exact ⟨_, List.splitOn_ne_nil _ _, identifiers, (List.intercalate_splitOn '.').symm⟩
  · rintro ⟨identifiers, nonempty, areIdentifiers, rfl⟩
    have dotless : ∀ identifier ∈ identifiers, '.' ∉ identifier := by
      intro identifier listed dot
      exact ((areIdentifiers identifier listed).continues '.' dot).isSolid.2.2.2 rfl
    rwa [List.splitOn_intercalate '.' dotless nonempty]

theorem Qualified.ne_nil (qualified : Qualified name) : name ≠ [] := by
  rw [← all_isIdentifier_segments_iff] at qualified
  rintro rfl
  cases qualified

/-- What stands in a qualified name is a dot or stands in one of the identifiers. -/
theorem mem_intercalate_dot {identifiers : List (List Char)}
    (member : c ∈ ['.'].intercalate identifiers) :
    c = '.' ∨ ∃ identifier ∈ identifiers, c ∈ identifier := by
  induction identifiers with
  | nil => exact absurd member (by simp)
  | cons identifier rest ih =>
    by_cases isLast : rest = []
    · rw [isLast, List.intercalate_singleton] at member
      exact .inr ⟨identifier, List.mem_cons_self, member⟩
    · rw [List.intercalate_cons_of_ne_nil isLast, List.append_assoc, List.mem_append,
        List.singleton_append, List.mem_cons] at member
      rcases member with inside | dot | later
      · exact .inr ⟨identifier, List.mem_cons_self, inside⟩
      · exact .inl dot
      · exact (ih later).imp_right fun ⟨other, listed, inside⟩ =>
          ⟨other, List.mem_cons_of_mem _ listed, inside⟩

/-- A qualified name has no blanks and no brackets of arguments or arrays. -/
theorem Qualified.isSolid (qualified : Qualified name) :
    ∀ c ∈ name, ¬ Blank.isBlank c ∧ c ≠ '<' ∧ c ≠ ']' := by
  obtain ⟨identifiers, -, areIdentifiers, rfl⟩ := qualified
  intro c member
  rcases mem_intercalate_dot member with rfl | ⟨identifier, listed, inside⟩
  · decide
  · obtain ⟨solid, noBracket, noSquare, -⟩ :=
      ((areIdentifiers identifier listed).continues c inside).isSolid
    exact ⟨solid, noBracket, noSquare⟩

/-- There is nothing to trim from a qualified name. -/
theorem Qualified.trim_eq (qualified : Qualified name) : Blank.trim name = name := by
  have solid : ∀ c ∈ name, ¬ Blank.isBlank c := fun c member => (qualified.isSolid c member).1
  have started : Blank.trimStart name = name := by
    simpa using Blank.trimStart_append_of_solid (List.forall_mem_nil _) solid qualified.ne_nil []
  rw [Blank.trim, started, Blank.trimEnd_of_solid solid]

/-- A qualified name does not spell an array. -/
theorem Qualified.not_isArray (qualified : Qualified name) : isArray name = false := by
  rw [isArray, Bool.eq_false_iff, ne_eq, List.isSuffixOf_iff_suffix]
  intro suffix
  have square : ']' ∈ name := Blank.mem_of_mem_trimEnd (suffix.subset (by decide))
  exact (qualified.isSolid ']' square).2.2 rfl

/-- A spelling is classified by what is left of it once blanks and arguments are gone. -/
theorem isDeclared_iff_qualified :
    isDeclared spelling = true ↔ Qualified (erase (Blank.trim spelling)) ∧
      String.ofList (erase (Blank.trim spelling)) ∉ primitives := by
  generalize same : erase (Blank.trim spelling) = name
  rw [isDeclared, same, Bool.and_eq_true, all_isIdentifier_segments_iff, and_comm]
  refine and_congr_right fun qualified => ?_
  have nonempty : name.isEmpty = false := List.isEmpty_eq_false_iff.mpr qualified.ne_nil
  simp [nonempty, qualified.not_isArray, isPrimitive, qualified.trim_eq]

/-- What is cut off a spelling is blank, or behind the bracket of type arguments. -/
theorem exists_around_erase_trim (spelling : List Char) :
    ∃ before behind arguments,
      spelling = before ++ erase (Blank.trim spelling) ++ behind ++ arguments ∧
      (∀ c ∈ before, Blank.isBlank c) ∧ (∀ c ∈ behind, Blank.isBlank c) ∧
      (arguments = [] ∨ ∃ rest, arguments = '<' :: rest) := by
  have start : spelling = spelling.takeWhile Blank.isBlank ++ Blank.trimStart spelling :=
    List.takeWhile_append_dropWhile.symm
  have blankStart : ∀ c ∈ spelling.takeWhile Blank.isBlank, Blank.isBlank c :=
    fun c member => List.mem_takeWhile_imp member
  obtain ⟨blanks, areBlank, same⟩ := Blank.trimEnd_append_blanks (Blank.trimStart spelling)
  rw [← Blank.trim] at same
  by_cases bracket : '<' ∈ Blank.trim spelling
  · obtain ⟨front, back, split, free⟩ := List.eq_append_cons_of_mem bracket
    obtain ⟨behind, areAlsoBlank, alsoSame⟩ := Blank.trimEnd_append_blanks front
    refine ⟨_, behind, '<' :: back ++ blanks, ?_, blankStart, areAlsoBlank, .inr ⟨_, rfl⟩⟩
    rw [split, erase_append_cons free, List.append_assoc, List.append_assoc,
      ← List.append_assoc _ behind, alsoSame, ← List.append_assoc front, ← split, same]
    exact start
  · refine ⟨_, blanks, [], ?_, blankStart, areBlank, .inl rfl⟩
    rw [erase_of_not_mem bracket, List.append_nil, List.append_assoc, same]
    exact start

/-- The name that a spelling declares is what erasing leaves of the trimmed spelling. -/
theorem Declares.name_eq {arguments : List Char} (declares : Declares spelling name arguments) :
    name = erase (Blank.trim spelling) := by
  obtain ⟨before, behind, rfl, blankBefore, blankBehind, qualified, -, cut⟩ := declares
  have solid : ∀ c ∈ name, ¬ Blank.isBlank c := fun c member => (qualified.isSolid c member).1
  have noBracket : '<' ∉ name := fun member => (qualified.isSolid '<' member).2.1 rfl
  have started : Blank.trimStart (before ++ name ++ behind) = name ++ behind := by
    rw [List.append_assoc]
    exact Blank.trimStart_append_of_solid blankBefore solid qualified.ne_nil behind
  have ended : Blank.trimEnd (name ++ behind) = name := by
    rw [Blank.trimEnd_append_of_blank blankBehind, Blank.trimEnd_of_solid solid]
  rcases cut with rfl | ⟨rest, rfl⟩
  · rw [List.append_nil, Blank.trim, started, ended, erase_of_not_mem noBracket]
  · have free : '<' ∉ name ++ behind := by
      rw [List.mem_append, not_or]
      exact ⟨noBracket, fun member => absurd (blankBehind '<' member) (by decide)⟩
    rw [Blank.trim_append_cons (by decide), started, erase_append_cons free, ended]

/-- A spelling is classified as declared just if it can be split into a name and what surrounds
it. -/
theorem isDeclared_iff_exists :
    isDeclared spelling = true ↔ ∃ name arguments, Declares spelling name arguments := by
  rw [isDeclared_iff_qualified]
  constructor
  · rintro ⟨qualified, notPrimitive⟩
    obtain ⟨before, behind, arguments, split, blankBefore, blankBehind, cut⟩ :=
      exists_around_erase_trim spelling
    exact ⟨_, arguments, before, behind, split, blankBefore, blankBehind, qualified, notPrimitive,
      cut⟩
  · rintro ⟨name, arguments, declares⟩
    rw [← declares.name_eq]
    obtain ⟨before, behind, -, -, -, qualified, notPrimitive, -⟩ := declares
    exact ⟨qualified, notPrimitive⟩

end Spelling

/-- **The names of declared types.** A name is that of a declared type if and only if it is
spelled as identifiers between dots, which are no keyword of a primitive type, with blanks
around them and perhaps type arguments behind. What is spelled there is the name without the
blanks around it and its type arguments. Erasing type arguments a second time changes nothing,
and erasing them does not change whether the type is declared. -/
theorem isDeclared_iff_declares (name : String) :
    (isDeclared name = true ↔
      ∃ bare arguments, Spelling.Declares name.toList bare arguments) ∧
    (∀ bare arguments, Spelling.Declares name.toList bare arguments →
      bare = Spelling.erase (Blank.trim name.toList)) ∧
    erase (erase name) = erase name ∧
    isDeclared (erase name) = isDeclared name := by
  refine ⟨Spelling.isDeclared_iff_exists, fun bare arguments => Spelling.Declares.name_eq, ?_,
    isDeclared_erase name⟩
  rw [erase, erase, String.toList_ofList, Spelling.erase_erase]

-- Blanks may stand before the type arguments, but not at a dot.
example : isDeclared " java.util.Map <K, V> " = true ∧ isDeclared "java. util.Map" = false := by
  decide

end TypeName

end ConstraintFacets
