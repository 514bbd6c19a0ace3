import ConstraintFacets.Proofs.ExplicitType.CacheRuns
import ConstraintFacets.Proofs.ExplicitType.PackageTypes

/-! # Which explicit type counts

The annotation on an accessor comes before the types of its package. It alone decides,
also when it is at fault, and no package is looked at. Without it the type of the accessor
decides whether a package is looked at: one that is not declared finds nothing, whatever
is wrong with the package. For a declared type the types that are kept come before those
that the package specifies, and these are then kept
(`ConstraintFacets.TypeCache.find_precedence`).
-/

namespace ConstraintFacets

namespace TypeCache

variable {cache : TypeCache} {accessor package : Declaration} {itemType : Option String}
  {type : String} {types : ExplicitTypes} {use : AnnotationUse}

/-- An annotation of the accessor decides alone; the package is not looked at. -/
theorem find_of_isFirst (first : accessor.IsFirst AnnotationName.schemaType use) :
    cache.find accessor itemType package =
      ((SpecifiedType.ofUse use).map fun type => some (.specified type), cache) := by
  rw [find, Declaration.find?_eq_some_iff.mpr first]

section Unannotated

variable (unannotated : ∀ use, ¬ accessor.IsFirst AnnotationName.schemaType use)
include unannotated

/-- Without an annotation, nothing is found for an accessor whose type is not declared. -/
theorem find_of_not_declared
    (undeclared : ∀ type, itemType = some type → ¬ TypeName.isDeclared type) :
    cache.find accessor itemType package = (.ok none, cache) := by
  have nothing : itemType.filter TypeName.isDeclared = none := by
    cases itemType with
    | none => rfl
    | some type => simp [undeclared type rfl]
  rw [find, Declaration.find?_eq_none_iff.mpr unannotated, nothing]

/-- Without an annotation, the package is asked for the declared type without its type
arguments. -/
theorem find_of_declared (declared : TypeName.isDeclared type) :
    cache.find accessor (some type) package =
      ((cache.load package).1.map fun types =>
        (Keyed.get? types (TypeName.erase type)).map .specified, (cache.load package).2) := by
  have given : (some type).filter TypeName.isDeclared = some type := by
    simp [declared]
  rw [find, Declaration.find?_eq_none_iff.mpr unannotated, given]

end Unannotated

/-- The types of a package that are new to a cache come in behind all others. -/
theorem insert_of_absent (absent : Keyed.get? cache.packages package.name = none) :
    Keyed.insert cache.packages package.name types = cache.packages ++ [(package.name, types)] := by
  apply Keyed.insert_of_not_mem
  simp [Keyed.mem_keys_iff, absent]

/-- Loading adds the types of a package behind the others, if they can be loaded and nothing is
kept under its name. -/
theorem load_changes (cache : TypeCache) (package : Declaration) :
    (cache.load package).2 = cache ∨
      Keyed.get? cache.packages package.name = none ∧ ∃ types,
        package.explicitTypes = .ok types ∧
        (cache.load package).2 = ⟨cache.packages ++ [(package.name, types)]⟩ := by
  rcases cache.load_cases package with
    ⟨types, -, load⟩ | ⟨absent, ⟨types, loaded, load⟩ | ⟨error, -, load⟩⟩
  · exact .inl (by rw [load])
  · exact .inr ⟨absent, types, loaded, by rw [load, insert_of_absent absent]⟩
  · exact .inl (by rw [load])

/-- A search changes the cache at most as loading the package does. -/
theorem find_changes (cache : TypeCache) (accessor : Declaration) (itemType : Option String)
    (package : Declaration) :
    (cache.find accessor itemType package).2 = cache ∨
      Keyed.get? cache.packages package.name = none ∧ ∃ types,
        package.explicitTypes = .ok types ∧
        (cache.find accessor itemType package).2 =
          ⟨cache.packages ++ [(package.name, types)]⟩ := by
  -- Only where a package is looked at may the cache change.
  by_cases annotated : ∃ use, accessor.IsFirst AnnotationName.schemaType use
  · obtain ⟨use, first⟩ := annotated
    exact .inl (by rw [find_of_isFirst first])
  · have unannotated := not_exists.mp annotated
    by_cases declared : ∃ type, itemType = some type ∧ TypeName.isDeclared type
    · obtain ⟨type, rfl, declared⟩ := declared
      rw [find_of_declared unannotated declared]
      exact cache.load_changes package
    · have undeclared : ∀ type, itemType = some type → ¬ TypeName.isDeclared type :=
        fun type given isDeclared => declared ⟨type, given, isDeclared⟩
      exact .inl (by rw [find_of_not_declared unannotated undeclared])

/-- **Precedence of explicit types.** If an accessor has an annotation for its schema
type, the first one decides alone, with an error if it names none: neither the type of the
accessor nor the package nor the cache matters, and the cache stays as it is. Otherwise,
if the type of the accessor is missing or not declared, nothing is found, and the package
is not looked at. Otherwise the type, without its arguments, is looked up in what the
cache keeps of the package; if it keeps nothing, in what the package specifies, which it
then keeps, or the error of the package is passed on. Nothing else is new in the cache. -/
theorem find_precedence (accessor : Declaration) :
    (∀ use, accessor.IsFirst AnnotationName.schemaType use →
      ∃ own : Except Error SpecifiedType,
        (∀ type, own = .ok type ↔ use.Names type) ∧
        (∀ error, own = .error error ↔ use.Misnames error) ∧
        ∀ itemType package, ∀ cache : TypeCache, cache.find accessor itemType package =
          (own.map fun type => some (.specified type), cache)) ∧
    ((∀ use, ¬ accessor.IsFirst AnnotationName.schemaType use) →
      (∀ itemType, (∀ type, itemType = some type → ¬ TypeName.isDeclared type) →
        ∀ package, ∀ cache : TypeCache,
          cache.find accessor itemType package = (.ok none, cache)) ∧
      ∀ type, TypeName.isDeclared type → ∀ package, ∀ cache : TypeCache,
        (∀ types, Keyed.get? cache.packages package.name = some types →
          cache.find accessor (some type) package =
            (.ok ((Keyed.get? types (TypeName.erase type)).map .specified), cache)) ∧
        (Keyed.get? cache.packages package.name = none →
          (∀ types, package.explicitTypes = .ok types →
            cache.find accessor (some type) package =
              (.ok ((Keyed.get? types (TypeName.erase type)).map .specified),
                ⟨cache.packages ++ [(package.name, types)]⟩)) ∧
          ∀ error, package.explicitTypes = .error error →
            cache.find accessor (some type) package = (.error error, cache))) ∧
    ∀ itemType package, ∀ cache : TypeCache,
      (cache.find accessor itemType package).2 = cache ∨
        Keyed.get? cache.packages package.name = none ∧ ∃ types,
          package.explicitTypes = .ok types ∧
          (cache.find accessor itemType package).2 =
            ⟨cache.packages ++ [(package.name, types)]⟩ := by
  refine ⟨fun use first => ?_, fun unannotated => ⟨fun itemType undeclared package cache => ?_,
    fun type declared package cache => ⟨fun types kept => ?_, fun absent =>
      ⟨fun types loaded => ?_, fun error failed => ?_⟩⟩⟩,
    fun itemType package cache => cache.find_changes accessor itemType package⟩
  · exact ⟨SpecifiedType.ofUse use, fun type => AnnotationUse.ofUse_eq_ok_iff,
      fun error => AnnotationUse.ofUse_eq_error_iff,
      fun itemType package cache => find_of_isFirst first⟩
  · exact find_of_not_declared unannotated undeclared
  · rw [find_of_declared unannotated declared, load_of_kept kept]
    rfl
  · rw [find_of_declared unannotated declared, load_of_explicitTypes absent loaded,
      insert_of_absent absent]
    rfl
  · rw [find_of_declared unannotated declared, load_of_error absent failed]
    rfl

end TypeCache

end ConstraintFacets
