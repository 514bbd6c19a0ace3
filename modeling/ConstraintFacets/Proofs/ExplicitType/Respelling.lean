import Mathlib.Data.List.Forall2
import ConstraintFacets.Proofs.ExplicitType.Precedence

/-! # Spellings of a declared type

The same declared type can be named with other type arguments and, as far as telling
declared types goes, with other blanks around it (`ConstraintFacets.TypeName.SameType`).
The types of a package are entered and looked up by names without their type arguments,
and by nothing less: two spellings find the same, and enter the same, if and only if they
are one without their type arguments. Blanks around a name are then part of it, except
those before the type arguments (`ConstraintFacets.TypeCache.find_respelled_iff`).
-/

namespace ConstraintFacets

/-- Two names differ at most in the blanks around them and in their type arguments. -/
def TypeName.SameType (first second : String) : Prop :=
  Spelling.erase (Blank.trim first.toList) = Spelling.erase (Blank.trim second.toList)

theorem TypeName.SameType.of_erase_eq {first second : String} (same : erase first = erase second) :
    SameType first second := by
  have spelled : Spelling.erase first.toList = Spelling.erase second.toList :=
    String.ofList_injective same
  rw [SameType, ← Spelling.erase_trim_erase first.toList, spelled, Spelling.erase_trim_erase]

/-- An annotation is about a type of a given name, and becomes one about another name. -/
def AnnotationUse.Respells (type spelling : String) (use other : AnnotationUse) : Prop :=
  use.value? "type" = some (.classLiteral type) ∧
    other = use.withValue "type" (.classLiteral spelling)

/-- An annotation stays as it is, or becomes one about another name. -/
def AnnotationUse.MayRespell (type spelling : String) (use other : AnnotationUse) : Prop :=
  other = use ∨ use.Respells type spelling other

/-- An annotation for a schema type, alone or in one that holds several, becomes one about
another name. -/
inductive AnnotationUse.RespellsWithin (type spelling : String) :
    AnnotationUse → AnnotationUse → Prop where
  | alone {use other : AnnotationUse} (isAlone : use.type = AnnotationName.schemaType)
      (respells : use.Respells type spelling other) : RespellsWithin type spelling use other
  | held {holder use other : AnnotationUse} (isHolder : holder.type = AnnotationName.schemaTypes)
      (holds : holder.value? "value" = some (.nested use))
      (respells : use.Respells type spelling other) :
      RespellsWithin type spelling holder (holder.withValue "value" (.nested other))
  | listed {holder use other : AnnotationUse} {earlier later : List AnnotationValue}
      (isHolder : holder.type = AnnotationName.schemaTypes)
      (lists : holder.value? "value" = some (.array (earlier ++ .nested use :: later)))
      (respells : use.Respells type spelling other) :
      RespellsWithin type spelling holder
        (holder.withValue "value" (.array (earlier ++ .nested other :: later)))

/-- One annotation on a package becomes one about another name. -/
def Declaration.Respelled (type spelling : String) (package other : Declaration) : Prop :=
  ∃ before use after changed, package.annotations = before ++ use :: after ∧
    use.RespellsWithin type spelling changed ∧
    other = { package with annotations := before ++ changed :: after }

variable {type spelling key : String} {use other : AnnotationUse} {result : SpecifiedType}

/-- An annotation about another spelling enters the same, if the spellings are one without
their type arguments. -/
theorem AnnotationUse.Enters.of_mayRespell
    (same : type ≠ unspecifiedType →
      TypeName.erase type = TypeName.erase spelling ∧ spelling ≠ unspecifiedType)
    (mayRespell : use.MayRespell type spelling other) (enters : use.Enters key result) :
    other.Enters key result := by
  rcases mayRespell with rfl | ⟨given, rfl⟩
  · exact enters
  obtain ⟨about, isAbout, names, rfl⟩ := enters
  have isType : about = type := by
    simpa using isAbout.given.symm.trans given
  subst isType
  obtain ⟨erased, specified⟩ := same isAbout.specified
  have declared : TypeName.isDeclared spelling := by
    rw [← TypeName.isDeclared_erase, ← erased, TypeName.isDeclared_erase]
    exact isAbout.declared
  refine ⟨spelling, ⟨?_, specified, declared⟩, ⟨?_, ?_⟩, erased.symm⟩
  · rw [value?_withValue, if_pos rfl]
  · simpa [value?_withValue] using names.name
  · simpa [value?_withValue] using names.uri

/-- Only what an annotation is about changes, not its type. -/
theorem AnnotationUse.RespellsWithin.type_eq (within : use.RespellsWithin type spelling other) :
    other.type = use.type := by
  cases within with
  | alone isAlone respells => rw [respells.2, withValue]
  | held => rfl
  | listed => rfl

namespace Declaration

variable {package other : Declaration} {uses others : List AnnotationUse}
  {types result : ExplicitTypes}

/-- Of the annotations that count on a package at most one changes. -/
theorem Respelled.forall₂_schemaTypeUses (respelled : package.Respelled type spelling other) :
    List.Forall₂ (AnnotationUse.MayRespell type spelling)
      package.schemaTypeUses other.schemaTypeUses := by
  obtain ⟨before, use, after, changed, carried, within, rfl⟩ := respelled
  have unchanged (uses : List AnnotationUse) :
      List.Forall₂ (AnnotationUse.MayRespell type spelling) uses uses :=
    List.forall₂_same.mpr fun _ _ => .inl rfl
  have typed := within.type_eq
  refine List.rel_append ?_ ?_
  · rcases find?_replace carried typed AnnotationName.schemaType with same | ⟨found, alsoFound⟩
    · rw [same]
      exact unchanged _
    · have isAlone := (find?_eq_some_iff.mp found).2
      rw [found, alsoFound]
      cases within with
      | alone _ respells => exact .cons (.inr respells) .nil
      | held isHolder | listed isHolder => exact absurd (isAlone.symm.trans isHolder) (by decide)
  · rcases find?_replace carried typed AnnotationName.schemaTypes with same | ⟨found, alsoFound⟩
    · rw [same]
      exact unchanged _
    · have isHolder := (find?_eq_some_iff.mp found).2
      rw [found, alsoFound]
      cases within with
      | alone isAlone => exact absurd (isAlone.symm.trans isHolder) (by decide)
      | held _ holds respells =>
        simp only [Option.bind_some, holds, AnnotationUse.value?_withValue, ↓reduceIte]
        exact .cons (.inr respells) .nil
      | listed _ lists respells =>
        simp only [Option.bind_some, lists, AnnotationUse.value?_withValue, ↓reduceIte,
          AnnotationValue.toList, List.filterMap_append]
        exact List.rel_append (unchanged _) (.cons (.inr respells) (unchanged _))

section Respelled

variable (same : type ≠ unspecifiedType →
  TypeName.erase type = TypeName.erase spelling ∧ spelling ≠ unspecifiedType)
include same

/-- Annotations of which some are about another spelling enter the same types, in any package. -/
theorem enterTypes_of_mayRespell
    (related : List.Forall₂ (AnnotationUse.MayRespell type spelling) uses others)
    (entered : package.enterTypes types uses = .ok result) :
    other.enterTypes types others = .ok result := by
  induction related generalizing types with
  | nil => exact entered
  | cons mayRespell _ ih =>
    obtain ⟨key, named, enters, rest⟩ := enterTypes_cons_eq_ok_iff.mp entered
    exact enterTypes_cons_eq_ok_iff.mpr ⟨key, named, enters.of_mayRespell same mayRespell, ih rest⟩

/-- A package in which an annotation is respelled has the same types. -/
theorem Respelled.explicitTypes_eq (respelled : package.Respelled type spelling other)
    (loaded : package.explicitTypes = .ok types) : other.explicitTypes = .ok types :=
  enterTypes_of_mayRespell same respelled.forall₂_schemaTypeUses loaded

end Respelled

end Declaration

namespace TypeCache

variable {accessor package : Declaration} {types : ExplicitTypes}

/-- What a fresh cache finds for an accessor without an annotation of its own, as one equation. -/
theorem find_fresh (unannotated : ∀ use, ¬ accessor.IsFirst AnnotationName.schemaType use)
    (loaded : package.explicitTypes = .ok types) (itemType : Option String) :
    (({} : TypeCache).find accessor itemType package).1 =
      .ok ((itemType.filter TypeName.isDeclared).bind fun type =>
        (Keyed.get? types (TypeName.erase type)).map .specified) := by
  by_cases declared : ∃ type, itemType = some type ∧ TypeName.isDeclared type
  · obtain ⟨type, rfl, declared⟩ := declared
    have given : (some type).filter TypeName.isDeclared = some type := by simp [declared]
    rw [find_of_declared unannotated declared, load_of_explicitTypes rfl loaded, given]
    rfl
  · have undeclared : ∀ type, itemType = some type → ¬ TypeName.isDeclared type :=
      fun type given isDeclared => declared ⟨type, given, isDeclared⟩
    have nothing : itemType.filter TypeName.isDeclared = none :=
      Option.filter_eq_none_iff.mpr undeclared
    rw [find_of_not_declared unannotated undeclared, nothing]
    rfl

/-- The type of dates. -/
def dateType : SpecifiedType where
  localName := "date"
  uri := schemaNamespace
  valid := rfl

/-- A package that specifies dates for a declared type. -/
def datingPackage (type : String) : Declaration where
  name := "com.example"
  annotations := [Declaration.schemaTypeUse type "date"]

/-- An accessor with no annotation. -/
def plainAccessor : Declaration where
  name := "born"

theorem not_isFirst_plainAccessor (use : AnnotationUse) :
    ¬ plainAccessor.IsFirst AnnotationName.schemaType use := by
  simp [Declaration.IsFirst, plainAccessor]

/-- The annotation for dates enters them under the declared type that it is about. -/
theorem enters_schemaTypeUse_iff :
    (Declaration.schemaTypeUse type "date").Enters key result ↔
      (type ≠ unspecifiedType ∧ TypeName.isDeclared type) ∧ TypeName.erase type = key ∧
        dateType = result := by
  have names : (Declaration.schemaTypeUse type "date").Names dateType := ⟨rfl, .inr ⟨nofun, rfl⟩⟩
  constructor
  · rintro ⟨about, isAbout, alsoNames, erased⟩
    have given : (Declaration.schemaTypeUse type "date").value? "type" =
        some (.classLiteral type) := rfl
    have isType : type = about := by simpa using given.symm.trans isAbout.given
    subst isType
    exact ⟨⟨isAbout.specified, isAbout.declared⟩, erased, names.eq alsoNames⟩
  · rintro ⟨⟨specified, declared⟩, erased, rfl⟩
    exact ⟨type, ⟨rfl, specified, declared⟩, names, erased⟩

/-- A package with that annotation alone has this one type, if the type it is about is declared. -/
theorem explicitTypes_datingPackage_iff :
    (datingPackage type).explicitTypes = .ok types ↔
      (type ≠ unspecifiedType ∧ TypeName.isDeclared type) ∧
        [(TypeName.erase type, dateType)] = types := by
  have uses : (datingPackage type).explicitTypes =
      (datingPackage type).enterTypes [] [Declaration.schemaTypeUse type "date"] := rfl
  rw [uses, Declaration.enterTypes_cons_eq_ok_iff]
  simp only [enters_schemaTypeUse_iff]
  constructor
  · rintro ⟨_, _, ⟨known, rfl, rfl⟩, entered⟩
    exact ⟨known, Except.ok.inj entered⟩
  · rintro ⟨known, rfl⟩
    exact ⟨_, _, ⟨known, rfl, rfl⟩, rfl⟩

/-- Dates are found for a declared type just if it is the one that the package is about,
by its name without type arguments. -/
theorem find_datingPackage_iff {asked : String} (declared : TypeName.isDeclared asked) :
    (({} : TypeCache).find plainAccessor (some asked) (datingPackage type)).1 =
        .ok (some (.specified dateType)) ↔
      (type ≠ unspecifiedType ∧ TypeName.isDeclared type) ∧
        TypeName.erase asked = TypeName.erase type := by
  cases loaded : (datingPackage type).explicitTypes with
  | error error =>
    have unknown : ¬ (type ≠ unspecifiedType ∧ TypeName.isDeclared type) := by
      intro known
      rw [explicitTypes_datingPackage_iff.mpr ⟨known, rfl⟩] at loaded
      cases loaded
    rw [find_of_declared not_isFirst_plainAccessor declared, load_of_error rfl loaded]
    simp [Except.map, unknown]
  | ok types =>
    obtain ⟨known, rfl⟩ := explicitTypes_datingPackage_iff.mp loaded
    rw [find_of_declared not_isFirst_plainAccessor declared, load_of_explicitTypes rfl loaded]
    simp [Except.map, Keyed.get?_cons, known]

/-- Packages that date two spellings of a type differ by one respelled annotation. -/
theorem respelled_datingPackage :
    (datingPackage type).Respelled type spelling (datingPackage spelling) :=
  ⟨[], _, [], _, rfl, .alone rfl ⟨rfl, rfl⟩, rfl⟩

/-- Asking for a type by a second name finds what asking by the first finds, whenever the
types of the package load. -/
def FoundAlike (type spelling : String) : Prop :=
  ∀ (accessor package : Declaration) (types : ExplicitTypes),
    (∀ use, ¬ accessor.IsFirst AnnotationName.schemaType use) →
    package.explicitTypes = .ok types →
    (({} : TypeCache).find accessor (some spelling) package).1 =
      (({} : TypeCache).find accessor (some type) package).1

/-- Specifying for a second name what a package specifies for the first leaves unchanged what
is found, whenever the types of the package load. -/
def SpecifiedAlike (type spelling : String) : Prop :=
  ∀ (accessor package respelled : Declaration) (types : ExplicitTypes) (itemType : Option String),
    (∀ use, ¬ accessor.IsFirst AnnotationName.schemaType use) →
    package.explicitTypes = .ok types → package.Respelled type spelling respelled →
    (({} : TypeCache).find accessor itemType respelled).1 =
      (({} : TypeCache).find accessor itemType package).1

theorem FoundAlike.symm (alike : FoundAlike type spelling) : FoundAlike spelling type :=
  fun _ _ _ unannotated loaded => (alike _ _ _ unannotated loaded).symm

/-- Spellings that find the same in a package that dates one of them are one without their type
arguments. -/
theorem FoundAlike.erase_eq (alike : FoundAlike type spelling)
    (declared : TypeName.isDeclared type) (alsoDeclared : TypeName.isDeclared spelling)
    (specified : type ≠ unspecifiedType) : TypeName.erase type = TypeName.erase spelling := by
  have loaded := explicitTypes_datingPackage_iff.mpr ⟨⟨specified, declared⟩, rfl⟩
  have found := (find_datingPackage_iff declared).mpr ⟨⟨specified, declared⟩, rfl⟩
  have alsoFound := (alike _ _ _ not_isFirst_plainAccessor loaded).trans found
  exact ((find_datingPackage_iff alsoDeclared).mp alsoFound).2.symm

/-- Two spellings find the same everywhere just if they are one without their type arguments. -/
theorem foundAlike_iff (declared : TypeName.isDeclared type)
    (alsoDeclared : TypeName.isDeclared spelling) :
    FoundAlike type spelling ↔ TypeName.erase type = TypeName.erase spelling := by
  constructor
  · intro alike
    -- No package is about the placeholder, so one is about the name that is not, if any.
    by_cases specified : type ≠ unspecifiedType
    · exact alike.erase_eq declared alsoDeclared specified
    by_cases alsoSpecified : spelling ≠ unspecifiedType
    · exact (alike.symm.erase_eq alsoDeclared declared alsoSpecified).symm
    · rw [not_not.mp specified, not_not.mp alsoSpecified]
  · intro erased accessor package types unannotated loaded
    have kept (asked : String) (isDeclared : TypeName.isDeclared asked) :
        (some asked).filter TypeName.isDeclared = some asked := Option.filter_some_pos isDeclared
    rw [find_fresh unannotated loaded, find_fresh unannotated loaded, kept _ declared,
      kept _ alsoDeclared, Option.bind_some, Option.bind_some, erased]

/-- Two spellings enter the same everywhere just if they do so in the package that dates one of
them. -/
theorem specifiedAlike_iff (declared : TypeName.isDeclared type) :
    SpecifiedAlike type spelling ↔
      (type ≠ unspecifiedType →
        TypeName.erase type = TypeName.erase spelling ∧ spelling ≠ unspecifiedType) := by
  constructor
  · intro alike specified
    have loaded := explicitTypes_datingPackage_iff.mpr ⟨⟨specified, declared⟩, rfl⟩
    have found := (find_datingPackage_iff declared).mpr ⟨⟨specified, declared⟩, rfl⟩
    have alsoFound := (alike _ _ _ _ (some type) not_isFirst_plainAccessor loaded
      respelled_datingPackage).trans found
    obtain ⟨⟨alsoSpecified, _⟩, erased⟩ := (find_datingPackage_iff declared).mp alsoFound
    exact ⟨erased, alsoSpecified⟩
  · intro same accessor package respelled types itemType unannotated loaded isRespelled
    have alsoLoaded := isRespelled.explicitTypes_eq same loaded
    rw [find_fresh unannotated loaded, find_fresh unannotated alsoLoaded]

/-- The spelling of a declared type makes no difference to what is found if and only if it is
the same name without its type arguments; for what is specified it must not become the
placeholder either. Names without blanks around them are the same then just if they name the
same type, while a blank around a name makes it another. -/
theorem find_respelled_iff (declared : TypeName.isDeclared type)
    (alsoDeclared : TypeName.isDeclared spelling) :
    (FoundAlike type spelling ↔ TypeName.erase type = TypeName.erase spelling) ∧
    (SpecifiedAlike type spelling ↔
      (type ≠ unspecifiedType →
        TypeName.erase type = TypeName.erase spelling ∧ spelling ≠ unspecifiedType)) ∧
    (TypeName.erase type = TypeName.erase spelling → TypeName.SameType type spelling) ∧
    (Blank.trim type.toList = type.toList → Blank.trim spelling.toList = spelling.toList →
      TypeName.SameType type spelling → TypeName.erase type = TypeName.erase spelling) := by
  refine ⟨foundAlike_iff declared alsoDeclared, specifiedAlike_iff declared,
    TypeName.SameType.of_erase_eq, fun bare alsoBare same => ?_⟩
  rw [TypeName.SameType, bare, alsoBare] at same
  rw [TypeName.erase, TypeName.erase, same]

/-- A list of texts is the same type under any type arguments. -/
theorem find_respelled_textList :
    FoundAlike "java.util.List<String>" "java.util.List <T>" ∧
      SpecifiedAlike "java.util.List<String>" "java.util.List <T>" := by
  have ⟨found, specified, _⟩ :=
    find_respelled_iff (show TypeName.isDeclared "java.util.List<String>" by decide)
      (show TypeName.isDeclared "java.util.List <T>" by decide)
  exact ⟨found.mpr (by decide), specified.mpr fun _ => ⟨by decide, by decide⟩⟩

/-- A blank before the name of a declared type hides what the package specifies for it. -/
theorem find_respelled_blankBefore :
    TypeName.SameType "org.joda.time.LocalDate" " org.joda.time.LocalDate" ∧
    TypeName.isDeclared "org.joda.time.LocalDate" ∧
    TypeName.isDeclared " org.joda.time.LocalDate" ∧
    (datingPackage "org.joda.time.LocalDate").explicitTypes =
      .ok [("org.joda.time.LocalDate", dateType)] ∧
    plainAccessor.annotations = [] ∧
    (({} : TypeCache).find plainAccessor (some "org.joda.time.LocalDate")
      (datingPackage "org.joda.time.LocalDate")).1 = .ok (some (.specified dateType)) ∧
    (({} : TypeCache).find plainAccessor (some " org.joda.time.LocalDate")
      (datingPackage "org.joda.time.LocalDate")).1 = .ok none :=
  ⟨rfl, by decide, by decide, rfl, rfl, rfl, rfl⟩

end TypeCache

end ConstraintFacets
