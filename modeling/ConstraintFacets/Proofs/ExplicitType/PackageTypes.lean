import ConstraintFacets.ExplicitType
import ConstraintFacets.Proofs.Extraction.Attributes
import ConstraintFacets.Proofs.TypeName.Erasure

/-! # The types that a package specifies

A package specifies schema types by annotations of its own
(`ConstraintFacets.Declaration.SpecifiesBy`). Each of them has to be about a declared
type (`ConstraintFacets.AnnotationUse.IsAbout`) and to name a schema type
(`ConstraintFacets.AnnotationUse.Names`). The types of a package can be loaded if and
only if all of them do; otherwise the first one that does not is reported. What is
loaded holds, under the name of each declared type without its type arguments, the
schema type of the last annotation about it
(`ConstraintFacets.Declaration.explicitTypes_characterization`).
-/

namespace ConstraintFacets

namespace AnnotationValue

variable {value : Option AnnotationValue}

theorem bind_classLiteral?_eq_some_iff {name : String} :
    value.bind classLiteral? = some name ↔ value = some (.classLiteral name) := by
  rcases value with _ | (_ | _ | _ | _ | _ | _ | _) <;> simp [classLiteral?]

theorem bind_string?_eq_some_iff {text : String} :
    value.bind string? = some text ↔ value = some (.string text) := by
  rcases value with _ | (_ | _ | _ | _ | _ | _ | _) <;> simp [string?]

end AnnotationValue

namespace SpecifiedType

variable {localName uri : String} {type : SpecifiedType} {error : Error}

/-- A type is made of a local name and a namespace just if they are those of the type. -/
theorem new_eq_ok_iff : new localName uri = .ok type ↔
    localName = type.localName ∧ uri = type.uri := by
  obtain ⟨typeName, typeUri, valid⟩ := type
  by_cases isName : NCName.isValid localName
  · simp [new, isName]
  · have other : localName ≠ typeName := by
      rintro rfl
      exact isName valid
    simp [new, isName, other]

/-- The only fault of a type is a local name that is no name without colons. -/
theorem new_eq_error_iff : new localName uri = .error error ↔
    ¬ NCName.isValid localName ∧ error = .name (.notNCName localName) := by
  by_cases isName : NCName.isValid localName <;> simp [new, isName, eq_comm]

end SpecifiedType

namespace AnnotationUse

/-- An annotation is about a declared type. -/
structure IsAbout (use : AnnotationUse) (type : String) : Prop where
  given : use.value? "type" = some (.classLiteral type)
  specified : type ≠ unspecifiedType
  declared : TypeName.isDeclared type

/-- An annotation names a schema type, which is a type of XML Schema if no text is given
for its namespace. -/
structure Names (use : AnnotationUse) (type : SpecifiedType) : Prop where
  name : use.value? "name" = some (.string type.localName)
  uri : use.value? "namespace" = some (.string type.uri) ∨
    (∀ uri, use.value? "namespace" ≠ some (.string uri)) ∧ type.uri = schemaNamespace

/-- What is wrong with an annotation that names no schema type. -/
inductive Misnames (use : AnnotationUse) : Error → Prop where
  | missing (unnamed : ∀ name, use.value? "name" ≠ some (.string name)) :
      Misnames use (.annotationUse
        { fault := .missingAttribute
          annotationType := some use.type
          attributeName := some "name" })
  | invalid {name : String} (named : use.value? "name" = some (.string name))
      (invalid : ¬ NCName.isValid name) : Misnames use (.name (.notNCName name))

/-- An annotation on a package enters a schema type under the name of a declared type,
without the type arguments of that. -/
def Enters (use : AnnotationUse) (key : String) (type : SpecifiedType) : Prop :=
  ∃ about, use.IsAbout about ∧ use.Names type ∧ TypeName.erase about = key

variable {use : AnnotationUse} {type : SpecifiedType} {error : Error}

/-- The namespace is what the annotation gives as a text, or else that of XML Schema. -/
theorem uri_eq_iff {uri : String} :
    ((use.value? "namespace").bind AnnotationValue.string?).getD schemaNamespace = uri ↔
      use.value? "namespace" = some (.string uri) ∨
        (∀ other, use.value? "namespace" ≠ some (.string other)) ∧ uri = schemaNamespace := by
  simp only [ne_eq, ← AnnotationValue.bind_string?_eq_some_iff]
  cases (use.value? "namespace").bind AnnotationValue.string? <;> simp [eq_comm]

/-- A type is read from an annotation just if the annotation names it. -/
theorem ofUse_eq_ok_iff : SpecifiedType.ofUse use = .ok type ↔ use.Names type := by
  have split : use.Names type ↔
      (use.value? "name").bind AnnotationValue.string? = some type.localName ∧
      ((use.value? "namespace").bind AnnotationValue.string?).getD schemaNamespace = type.uri := by
    rw [AnnotationValue.bind_string?_eq_some_iff, uri_eq_iff]
    exact ⟨fun names => ⟨names.name, names.uri⟩, fun ⟨name, uri⟩ => ⟨name, uri⟩⟩
  rw [split, SpecifiedType.ofUse]
  cases (use.value? "name").bind AnnotationValue.string? with
  | none => simp
  | some localName => simp [SpecifiedType.new_eq_ok_iff]

/-- The error for an annotation that names no type says what is wrong with it. -/
theorem ofUse_eq_error_iff : SpecifiedType.ofUse use = .error error ↔ use.Misnames error := by
  unfold SpecifiedType.ofUse
  cases given : (use.value? "name").bind AnnotationValue.string? with
  | none =>
    have unnamed : ∀ name, use.value? "name" ≠ some (.string name) := by
      intro name named
      rw [AnnotationValue.bind_string?_eq_some_iff.mpr named] at given
      cases given
    constructor
    · rintro ⟨⟩
      exact .missing unnamed
    · rintro (_ | ⟨named, -⟩)
      · rfl
      · exact absurd named (unnamed _)
  | some localName =>
    have named := AnnotationValue.bind_string?_eq_some_iff.mp given
    simp only [SpecifiedType.new_eq_error_iff]
    constructor
    · rintro ⟨invalid, rfl⟩
      exact .invalid named invalid
    · rintro (unnamed | ⟨alsoNamed, invalid⟩)
      · exact absurd named (unnamed _)
      · rw [named] at alsoNamed
        cases alsoNamed
        exact ⟨invalid, rfl⟩

theorem Names.eq {other : SpecifiedType} (names : use.Names type) (also : use.Names other) :
    type = other := by
  rw [← ofUse_eq_ok_iff] at names also
  exact Except.ok.inj (names.symm.trans also)

theorem IsAbout.eq {first second : String} (about : use.IsAbout first)
    (also : use.IsAbout second) : first = second := by
  simpa using about.given.symm.trans also.given

/-- An annotation enters at most one schema type, under one name. -/
theorem Enters.eq {key other : String} {otherType : SpecifiedType} (enters : use.Enters key type)
    (also : use.Enters other otherType) : key = other ∧ type = otherType := by
  obtain ⟨about, isAbout, names, rfl⟩ := enters
  obtain ⟨otherAbout, alsoAbout, alsoNames, rfl⟩ := also
  exact ⟨congrArg TypeName.erase (isAbout.eq alsoAbout), names.eq alsoNames⟩

end AnnotationUse

namespace Declaration

/-- The annotations by which a package specifies schema types: the first one that stands
alone, then the annotations among the entries of the first one that holds several. -/
def SpecifiesBy (package : Declaration) (uses : List AnnotationUse) : Prop :=
  ∃ (own : Option AnnotationUse) (held : List AnnotationUse), uses = own.toList ++ held ∧
    (∀ use, own = some use ↔ package.IsFirst AnnotationName.schemaType use) ∧
    (∀ holder, package.IsFirst AnnotationName.schemaTypes holder →
      (∀ entries, holder.value? "value" = some (.array entries) →
        held = entries.filterMap AnnotationValue.nested?) ∧
      (∀ use, holder.value? "value" = some (.nested use) → held = [use]) ∧
      ((∀ entries, holder.value? "value" ≠ some (.array entries)) →
        (∀ use, holder.value? "value" ≠ some (.nested use)) → held = [])) ∧
    ((∀ holder, ¬ package.IsFirst AnnotationName.schemaTypes holder) → held = [])

/-- What is wrong with an annotation on a package that is about no declared type. -/
inductive Mistypes (package : Declaration) (use : AnnotationUse) : Error → Prop where
  | missing (missing : ∀ type, use.value? "type" = some (.classLiteral type) →
      type = unspecifiedType) :
      Mistypes package use (.configuration (.typeMissing package.name))
  | undeclared {type : String} (given : use.value? "type" = some (.classLiteral type))
      (specified : type ≠ unspecifiedType) (undeclared : ¬ TypeName.isDeclared type) :
      Mistypes package use (.configuration (.typeNotDeclared package.name type))

/-- What is wrong with an annotation on a package. The declared type is looked at before
the schema type. -/
def Offends (package : Declaration) (use : AnnotationUse) (error : Error) : Prop :=
  package.Mistypes use error ∨ ∃ about, use.IsAbout about ∧ use.Misnames error

/-- Of the annotations that enter something under a key, the last one enters a type. -/
def LastEnters (uses : List AnnotationUse) (key : String) (type : SpecifiedType) : Prop :=
  ∃ before use after, uses = before ++ use :: after ∧ use.Enters key type ∧
    ∀ later ∈ after, ∀ other, ¬ later.Enters key other

variable {package : Declaration} {use : AnnotationUse} {uses : List AnnotationUse}
  {types result : ExplicitTypes} {key : String} {type : SpecifiedType} {error : Error}

/-- The annotations that count are the single one of a package and those in the first that
holds several. -/
theorem specifiesBy_schemaTypeUses (package : Declaration) :
    package.SpecifiesBy package.schemaTypeUses := by
  refine ⟨_, _, rfl, fun use => find?_eq_some_iff, fun holder first => ?_, fun nowhere => ?_⟩
  · rw [find?_eq_some_iff.mpr first, Option.bind_some]
    refine ⟨fun entries given => ?_, fun use given => ?_, fun noArray noNested => ?_⟩
    · simp only [given, AnnotationValue.toList]
    · simp only [given, AnnotationValue.toList]
      rfl
    · cases given : holder.value? "value" with
      | none => rfl
      | some value =>
        cases value with
        | array entries => exact absurd given (noArray entries)
        | nested use => exact absurd given (noNested use)
        | _ => rfl
  · rw [find?_eq_none_iff.mpr nowhere]
    rfl

/-- The type that an annotation is about is the one that is found in it. -/
theorem adaptedType_eq_ok_iff {about : String} :
    package.adaptedType use = .ok about ↔ use.IsAbout about := by
  constructor
  · intro adapted
    unfold adaptedType at adapted
    split at adapted
    · cases adapted
    · rename_i given
      split at adapted
      · cases adapted
      · rename_i specified
        split at adapted
        · rename_i declared
          cases adapted
          exact ⟨AnnotationValue.bind_classLiteral?_eq_some_iff.mp given, specified, declared⟩
        · cases adapted
  · rintro ⟨given, specified, declared⟩
    rw [adaptedType, AnnotationValue.bind_classLiteral?_eq_some_iff.mpr given]
    simp only [if_neg specified, if_pos declared]

/-- The error for an annotation about no declared type says what is wrong with it. -/
theorem adaptedType_eq_error_iff :
    package.adaptedType use = .error error ↔ package.Mistypes use error := by
  constructor
  · intro failed
    unfold adaptedType at failed
    split at failed
    · rename_i given
      cases failed
      apply Mistypes.missing
      intro about alsoGiven
      rw [AnnotationValue.bind_classLiteral?_eq_some_iff.mpr alsoGiven] at given
      cases given
    · rename_i about given
      rw [AnnotationValue.bind_classLiteral?_eq_some_iff] at given
      split at failed
      · rename_i placeholder
        cases failed
        apply Mistypes.missing
        intro other alsoGiven
        rw [given] at alsoGiven
        cases alsoGiven
        exact placeholder
      · rename_i specified
        split at failed
        · cases failed
        · rename_i undeclared
          cases failed
          exact .undeclared given specified undeclared
  · intro mistypes
    cases mistypes with
    | missing missing =>
      unfold adaptedType
      split
      · rfl
      · rename_i about given
        rw [if_pos (missing about (AnnotationValue.bind_classLiteral?_eq_some_iff.mp given))]
    | undeclared given specified undeclared =>
      rw [adaptedType, AnnotationValue.bind_classLiteral?_eq_some_iff.mpr given]
      simp only [if_neg specified, if_neg undeclared]

/-- The first annotation enters its type before the others enter theirs. -/
theorem enterTypes_cons_eq_ok_iff :
    package.enterTypes types (use :: uses) = .ok result ↔
      ∃ key type, use.Enters key type ∧
        package.enterTypes (Keyed.insert types key type) uses = .ok result := by
  simp only [enterTypes, bind_eq_ok_iff, adaptedType_eq_ok_iff, AnnotationUse.ofUse_eq_ok_iff]
  constructor
  · rintro ⟨about, isAbout, type, names, entered⟩
    exact ⟨_, type, ⟨about, isAbout, names, rfl⟩, entered⟩
  · rintro ⟨_, type, ⟨about, isAbout, names, rfl⟩, entered⟩
    exact ⟨about, isAbout, type, names, entered⟩

/-- The first annotation that offends is reported, whatever comes after it. -/
theorem enterTypes_cons_eq_error_iff :
    package.enterTypes types (use :: uses) = .error error ↔
      package.Offends use error ∨ ∃ key type, use.Enters key type ∧
        package.enterTypes (Keyed.insert types key type) uses = .error error := by
  simp only [enterTypes, bind_eq_error_iff, adaptedType_eq_ok_iff, adaptedType_eq_error_iff,
    AnnotationUse.ofUse_eq_ok_iff, AnnotationUse.ofUse_eq_error_iff]
  constructor
  · rintro (mistypes | ⟨about, isAbout, misnames | ⟨type, names, failed⟩⟩)
    · exact .inl (.inl mistypes)
    · exact .inl (.inr ⟨about, isAbout, misnames⟩)
    · exact .inr ⟨_, type, ⟨about, isAbout, names, rfl⟩, failed⟩
  · rintro (offends | ⟨_, type, ⟨about, isAbout, names, rfl⟩, failed⟩)
    · rcases offends with mistypes | ⟨about, isAbout, misnames⟩
      · exact .inl mistypes
      · exact .inr ⟨about, isAbout, .inl misnames⟩
    · exact .inr ⟨about, isAbout, .inr ⟨type, names, failed⟩⟩

/-- An annotation enters last under a name if none behind it enters anything there. -/
theorem lastEnters_cons_iff :
    LastEnters (use :: uses) key type ↔
      LastEnters uses key type ∨
        use.Enters key type ∧ ∀ later ∈ uses, ∀ other, ¬ later.Enters key other := by
  constructor
  · rintro ⟨before, last, after, split, enters, final⟩
    rcases List.cons_eq_append_iff.mp split with ⟨rfl, same⟩ | ⟨others, rfl, same⟩
    · cases same
      exact .inr ⟨enters, final⟩
    · exact .inl ⟨others, last, after, same, enters, final⟩
  · rintro (⟨before, last, after, rfl, enters, final⟩ | ⟨enters, final⟩)
    · exact ⟨use :: before, last, after, rfl, enters, final⟩
    · exact ⟨[], use, uses, rfl, enters, final⟩

/-- The types can be entered just if every annotation enters one. -/
theorem exists_enterTypes_iff :
    (∃ result, package.enterTypes types uses = .ok result) ↔
      ∀ use ∈ uses, ∃ key type, use.Enters key type := by
  -- Whether an annotation is entered does not depend on what the others have entered.
  induction uses generalizing types with
  | nil => simp [enterTypes]
  | cons use rest ih =>
    rw [List.forall_mem_cons]
    simp only [enterTypes_cons_eq_ok_iff]
    constructor
    · rintro ⟨result, key, type, enters, entered⟩
      exact ⟨⟨key, type, enters⟩, ih.mp ⟨result, entered⟩⟩
    · rintro ⟨⟨key, type, enters⟩, others⟩
      obtain ⟨result, entered⟩ := ih.mpr others
      exact ⟨result, key, type, enters, entered⟩

/-- The first annotation at fault is reported. -/
theorem enterTypes_eq_error_iff :
    package.enterTypes types uses = .error error ↔
      ∃ before use after, uses = before ++ use :: after ∧
        (∀ earlier ∈ before, ∃ key type, earlier.Enters key type) ∧
        package.Offends use error := by
  induction uses generalizing types with
  | nil => simp [enterTypes]
  | cons first rest ih =>
    rw [enterTypes_cons_eq_error_iff]
    simp only [ih]
    constructor
    · rintro (offends | ⟨key, type, enters, before, use, after, rfl, entered, offends⟩)
      · exact ⟨[], first, rest, rfl, by simp, offends⟩
      · refine ⟨first :: before, use, after, rfl, ?_, offends⟩
        rw [List.forall_mem_cons]
        exact ⟨⟨key, type, enters⟩, entered⟩
    · rintro ⟨before, use, after, split, entered, offends⟩
      rcases List.cons_eq_append_iff.mp split with ⟨rfl, same⟩ | ⟨others, rfl, same⟩
      · cases same
        exact .inl offends
      · rw [List.forall_mem_cons] at entered
        obtain ⟨⟨key, type, enters⟩, entered⟩ := entered
        exact .inr ⟨key, type, enters, others, use, after, same, entered, offends⟩

theorem nodup_keys_enterTypes (distinct : (Keyed.keys types).Nodup)
    (entered : package.enterTypes types uses = .ok result) : (Keyed.keys result).Nodup := by
  induction uses generalizing types with
  | nil =>
    cases entered
    exact distinct
  | cons use rest ih =>
    obtain ⟨key, type, -, enteredRest⟩ := enterTypes_cons_eq_ok_iff.mp entered
    exact ih (Keyed.nodup_keys_insert distinct key type) enteredRest

/-- The names of the entries are those that an annotation enters, and those from before. -/
theorem mem_keys_enterTypes (entered : package.enterTypes types uses = .ok result) :
    key ∈ Keyed.keys result ↔
      (∃ use ∈ uses, ∃ type, use.Enters key type) ∨ key ∈ Keyed.keys types := by
  induction uses generalizing types with
  | nil =>
    cases entered
    simp
  | cons use rest ih =>
    obtain ⟨about, type, enters, enteredRest⟩ := enterTypes_cons_eq_ok_iff.mp entered
    have own : (∃ type, use.Enters key type) ↔ key = about := by
      constructor
      · rintro ⟨other, also⟩
        exact (also.eq enters).1
      · rintro rfl
        exact ⟨type, enters⟩
    simp only [ih enteredRest, Keyed.mem_keys_insert, List.mem_cons, or_and_right, exists_or,
      exists_eq_left, own, or_assoc, or_left_comm]

/-- Under a key is what the last annotation entered there, or else what was there
before. -/
theorem get?_enterTypes (entered : package.enterTypes types uses = .ok result) :
    Keyed.get? result key = some type ↔
      LastEnters uses key type ∨
        (∀ use ∈ uses, ∀ other, ¬ use.Enters key other) ∧ Keyed.get? types key = some type := by
  induction uses generalizing types with
  | nil =>
    cases entered
    simp [LastEnters]
  | cons use rest ih =>
    obtain ⟨about, first, enters, enteredRest⟩ := enterTypes_cons_eq_ok_iff.mp entered
    rw [ih enteredRest, lastEnters_cons_iff, Keyed.get?_insert, List.forall_mem_cons]
    -- What was there before is visible only until this annotation enters the key.
    by_cases same : key = about
    · subst same
      have own : use.Enters key type ↔ first = type :=
        ⟨fun also => (enters.eq also).2, fun same => same ▸ enters⟩
      have hides : ¬ ∀ other, ¬ use.Enters key other := fun none => none first enters
      simp only [↓reduceIte, Option.some.injEq, own, hides, false_and, or_false, and_comm]
    · have foreign : ∀ other, ¬ use.Enters key other :=
        fun other also => same (also.eq enters).1
      simp only [if_neg same, foreign, not_false_eq_true, implies_true, true_and, false_and,
        or_false]

/-- A package specifies schema types by the first of its annotations that stands alone and
then by those in the first one that holds several. The types are loaded if and only if
each of these enters one; otherwise an error is that of the first one at fault. What is
loaded has the names of the declared types that they are about, without type arguments,
and under each of them the type of the last one about it. -/
theorem explicitTypes_characterization (package : Declaration) :
    package.SpecifiesBy package.schemaTypeUses ∧
    ((∃ types, package.explicitTypes = .ok types) ↔
      ∀ use ∈ package.schemaTypeUses, ∃ key type, use.Enters key type) ∧
    (∀ error, package.explicitTypes = .error error ↔
      ∃ before use after, package.schemaTypeUses = before ++ use :: after ∧
        (∀ earlier ∈ before, ∃ key type, earlier.Enters key type) ∧
        package.Offends use error) ∧
    (∀ types, package.explicitTypes = .ok types →
      (Keyed.keys types).Nodup ∧
      (∀ key, key ∈ Keyed.keys types ↔
        ∃ use ∈ package.schemaTypeUses, ∃ type, use.Enters key type) ∧
      (∀ key ∈ Keyed.keys types, TypeName.isDeclared key ∧ '<' ∉ key.toList) ∧
      ∀ key type, Keyed.get? types key = some type ↔
        LastEnters package.schemaTypeUses key type) := by
  refine ⟨specifiesBy_schemaTypeUses package, exists_enterTypes_iff,
    fun error => enterTypes_eq_error_iff, fun types loaded => ?_⟩
  have entered : package.enterTypes [] package.schemaTypeUses = .ok types := loaded
  have keys (key : String) : key ∈ Keyed.keys types ↔
      ∃ use ∈ package.schemaTypeUses, ∃ type, use.Enters key type := by
    simp [mem_keys_enterTypes entered]
  have distinct : (Keyed.keys ([] : ExplicitTypes)).Nodup := List.nodup_nil
  refine ⟨nodup_keys_enterTypes distinct entered, keys, fun key listed => ?_, fun key type => ?_⟩
  · obtain ⟨use, -, type, about, isAbout, -, rfl⟩ := (keys key).mp listed
    have declared := (TypeName.isDeclared_erase about).trans isAbout.declared
    exact ⟨declared, TypeName.not_mem_erase about⟩
  · simp [get?_enterTypes entered]

/-- An annotation that gives a schema type to a declared type. -/
def schemaTypeUse (type name : String) : AnnotationUse where
  type := AnnotationName.schemaType
  values := [("name", .string name), ("type", .classLiteral type)]

-- Type arguments do not tell types apart, so the second annotation counts.
example : ({ name := "com.example", annotations := [
      { type := AnnotationName.schemaTypes,
        values := [("value", .nested (schemaTypeUse "Day" "gDay"))] },
      schemaTypeUse "Day <T>" "date"] } : Declaration).explicitTypes =
    .ok [("Day", ⟨"gDay", schemaNamespace, by decide⟩)] := rfl

end Declaration

end ConstraintFacets
