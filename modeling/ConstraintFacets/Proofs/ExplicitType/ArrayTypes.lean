import ConstraintFacets.Proofs.ExplicitType.Respelling
import ConstraintFacets.Proofs.TypeName.DeclaredNames

/-! # Array types among the explicit types

Packages specify schema types for declared types only, and are asked about declared types
only. Arrays are no declared types. An array whose items have type arguments is taken for one
all the same, because the arguments are erased with everything behind them; any other array is
refused by all packages, and no package is asked about it
(`ConstraintFacets.TypeCache.array_refused_iff`).
-/

namespace ConstraintFacets

/-- A name of a declared type has type arguments behind it. -/
def TypeName.IsParameterized (type : String) : Prop :=
  ∃ bare rest, Spelling.Declares type.toList bare ('<' :: rest)

variable {type : String}

/-- The name of an array is taken for a declared type just if type arguments cut its brackets
off. -/
theorem TypeName.isDeclared_iff_isParameterized (array : isArray type = true) :
    isDeclared type = true ↔ IsParameterized type := by
  rw [isDeclared, Spelling.isDeclared_iff_exists]
  constructor
  · rintro ⟨bare, arguments, declares⟩
    have parts := declares
    obtain ⟨before, behind, split, blankBefore, blankBehind, qualified, -, cut⟩ := parts
    rcases cut with rfl | ⟨rest, rfl⟩
    · -- Without type arguments the brackets would stand in the name or among the blanks.
      rw [isArray, Spelling.isArray, List.isSuffixOf_iff_suffix] at array
      have square : ']' ∈ type.toList := Blank.mem_of_mem_trimEnd (array.subset (by decide))
      rw [split, List.append_nil, List.mem_append, List.mem_append] at square
      rcases square with (blank | inside) | blank
      · exact absurd (blankBefore ']' blank) (by decide)
      · exact absurd rfl (qualified.isSolid ']' inside).2.2
      · exact absurd (blankBehind ']' blank) (by decide)
    · exact ⟨bare, rest, declares⟩
  · rintro ⟨bare, rest, declares⟩
    exact ⟨bare, _, declares⟩

/-- There is a bracket of type arguments in such a name. -/
theorem TypeName.IsParameterized.bracket_mem (parameterized : IsParameterized type) :
    '<' ∈ type.toList := by
  obtain ⟨bare, rest, before, behind, split, -⟩ := parameterized
  rw [split]
  exact List.mem_append_right _ List.mem_cons_self

/-- No package can be loaded that specifies something for a type. The type is reported,
unless something before it is at fault. -/
def Declaration.Refused (type : String) : Prop :=
  ∀ (package : Declaration) (before after : List AnnotationUse) (use : AnnotationUse),
    package.schemaTypeUses = before ++ use :: after →
    use.value? "type" = some (.classLiteral type) →
    ∃ error, package.explicitTypes = .error error ∧
      ((∀ earlier ∈ before, ∃ key specified, earlier.Enters key specified) →
        error = .configuration (.typeNotDeclared package.name type))

namespace TypeCache

/-- A package refuses a type just if its name is not that of a declared type. -/
theorem refused_iff (specified : type ≠ unspecifiedType) :
    Declaration.Refused type ↔ TypeName.isDeclared type = false := by
  constructor
  · intro refused
    by_contra declared
    rw [Bool.not_eq_false] at declared
    obtain ⟨error, failed, -⟩ := refused (datingPackage type) [] [] _ rfl rfl
    rw [explicitTypes_datingPackage_iff.mpr ⟨⟨specified, declared⟩, rfl⟩] at failed
    cases failed
  · intro undeclared package before after use split given
    have offends : package.Offends use (.configuration (.typeNotDeclared package.name type)) :=
      .inl (.undeclared given specified (by simp [undeclared]))
    cases loaded : package.explicitTypes with
    | ok types =>
      have listed : use ∈ package.schemaTypeUses := by simp [split]
      obtain ⟨key, result, about, isAbout, -⟩ :=
        Declaration.exists_enterTypes_iff.mp ⟨types, loaded⟩ use listed
      have isType : about = type := by simpa using isAbout.given.symm.trans given
      exact absurd isAbout.declared (by simp [isType, undeclared])
    | error error =>
      refine ⟨error, rfl, fun entered => ?_⟩
      have first : package.explicitTypes = _ :=
        Declaration.enterTypes_eq_error_iff.mpr ⟨before, use, after, split, entered, offends⟩
      exact Except.error.inj (loaded.symm.trans first)

/-- Whatever is found for a type is found without a package, and the cache stays as it is. -/
def Unasked (type : String) : Prop :=
  ∀ (cache : TypeCache) (accessor package other : Declaration),
    cache.find accessor (some type) package = cache.find accessor (some type) other ∧
      (cache.find accessor (some type) package).2 = cache

/-- No package is asked about a type just if its name is not that of a declared type. -/
theorem unasked_iff : Unasked type ↔ TypeName.isDeclared type = false := by
  constructor
  · intro unasked
    by_contra declared
    rw [Bool.not_eq_false] at declared
    have unchanged := (unasked {} plainAccessor (.ofPackage "") (.ofPackage "")).2
    rw [find_of_declared not_isFirst_plainAccessor declared,
      load_of_explicitTypes rfl rfl] at unchanged
    cases unchanged
  · intro undeclared cache accessor package other
    by_cases annotated : ∃ use, accessor.IsFirst AnnotationName.schemaType use
    · obtain ⟨use, first⟩ := annotated
      rw [find_of_isFirst first, find_of_isFirst first]
      exact ⟨rfl, rfl⟩
    · have nothing : ∀ asked, some type = some asked → ¬ TypeName.isDeclared asked := by
        simp [undeclared]
      rw [find_of_not_declared (not_exists.mp annotated) nothing,
        find_of_not_declared (not_exists.mp annotated) nothing]
      exact ⟨rfl, rfl⟩

/-- **Array types.** The name of an array type is not classified as declared, is refused by
every package, and is one about which no package is asked, each if and only if it does not
start with a declared type and its type arguments. So it is for every array type without type
arguments. -/
theorem array_refused_iff (array : TypeName.isArray type = true) :
    (TypeName.isDeclared type = false ↔ ¬ TypeName.IsParameterized type) ∧
    (Declaration.Refused type ↔ ¬ TypeName.IsParameterized type) ∧
    (Unasked type ↔ ¬ TypeName.IsParameterized type) ∧
    (TypeName.IsParameterized type → '<' ∈ type.toList) := by
  have undeclared : TypeName.isDeclared type = false ↔ ¬ TypeName.IsParameterized type := by
    rw [← TypeName.isDeclared_iff_isParameterized array, Bool.not_eq_true]
  have specified : type ≠ unspecifiedType := by
    rintro rfl
    revert array
    decide
  exact ⟨undeclared, (refused_iff specified).trans undeclared, unasked_iff.trans undeclared,
    TypeName.IsParameterized.bracket_mem⟩

/-- An array of texts is no declared type, for packages and for those who ask them. -/
theorem array_refused_texts :
    TypeName.isArray "java.lang.String[]" = true ∧
    TypeName.isDeclared "java.lang.String[]" = false ∧
    Declaration.Refused "java.lang.String[]" ∧ Unasked "java.lang.String[]" := by
  have array : TypeName.isArray "java.lang.String[]" = true := by decide
  obtain ⟨undeclared, refused, unasked, bracket⟩ := array_refused_iff array
  have bare : ¬ TypeName.IsParameterized "java.lang.String[]" :=
    fun parameterized => absurd (bracket parameterized) (by decide)
  exact ⟨array, undeclared.mpr bare, refused.mpr bare, unasked.mpr bare⟩

/-- An array of lists of texts is taken for the type of lists. -/
theorem array_declared_lists :
    TypeName.isArray "List<String>[]" = true ∧
    TypeName.isDeclared "List<String>[]" = true ∧
    (datingPackage "List<String>[]").explicitTypes = .ok [("List", dateType)] ∧
    (({} : TypeCache).find plainAccessor (some "List<String>[]") (datingPackage "List")).1 =
      .ok (some (.specified dateType)) :=
  ⟨by decide, by decide, rfl, rfl⟩

end TypeCache

end ConstraintFacets
