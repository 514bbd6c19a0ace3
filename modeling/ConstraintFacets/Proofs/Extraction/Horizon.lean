import Mathlib.Logic.Basic
import ConstraintFacets.Proofs.Extraction.Requirement

/-! # How far a declaration is searched

Whether a declaration is required is found by a search through the declarations of the
types of its annotations. The search to a depth sees the declarations that are one hop
further than the depth, and it sees nothing behind them: cutting off what is declared
there does not change what is found
(`ConstraintFacets.Declaration.isRequiredWithin_cut`). So declarations that are the same
up to there are required together, whatever is declared further away
(`ConstraintFacets.Declaration.isRequired_iff_two_hops`).
-/

namespace ConstraintFacets

/-- An annotation without what is declared more than so many hops away. -/
def AnnotationUse.cut : Nat → AnnotationUse → AnnotationUse
  | 0, use => { use with definition := none }
  | hops + 1, use =>
    { use with definition := use.definition.map fun type =>
        { type with annotations := type.annotations.map (cut hops) } }

/-- The declaration of an annotation type without what is more than so many hops away. -/
def AnnotationType.cut (hops : Nat) (type : AnnotationType) : AnnotationType :=
  { type with annotations := type.annotations.map (AnnotationUse.cut hops) }

/-- A declaration without what is declared more than so many hops away. -/
def Declaration.cut (hops : Nat) (declaration : Declaration) : Declaration :=
  { declaration with annotations := declaration.annotations.map (AnnotationUse.cut hops) }

namespace AnnotationUse

theorem type_cut (hops : Nat) (use : AnnotationUse) : (use.cut hops).type = use.type := by
  cases hops <;> rfl

theorem groups_cut (hops : Nat) (use : AnnotationUse) : (use.cut hops).groups = use.groups := by
  cases hops <;> rfl

end AnnotationUse

namespace Declaration

variable {declaration : Declaration} {filter : GroupFilter} {kind : ConstraintKind} {hops : Nat}

/-- The annotation types one hop away are cut one hop nearer. -/
theorem annotationTypes_cut :
    (declaration.cut (hops + 1)).annotationTypes =
      declaration.annotationTypes.map (AnnotationType.cut hops) := by
  rw [annotationTypes, annotationTypes, cut, List.filterMap_map, List.map_filterMap]
  rfl

/-- The active annotation of a kind stays active, and is cut. -/
theorem active?_cut :
    (declaration.cut hops).active? kind filter =
      (declaration.active? kind filter).map (AnnotationUse.cut hops) := by
  have sameType : (fun use : AnnotationUse => decide (use.type = kind.annotationType)) ∘
      AnnotationUse.cut hops = fun use => decide (use.type = kind.annotationType) := by
    funext use
    simp only [Function.comp_apply, AnnotationUse.type_cut]
  have sameGroups : filter.isActive ∘ AnnotationUse.cut hops = filter.isActive := by
    funext use
    simp only [Function.comp_apply, GroupFilter.isActive, AnnotationUse.groups_cut]
  rw [active?, active?, find?, find?, cut, List.find?_map, sameType, Option.filter_map, sameGroups]

/-- A cut does not change what a declaration presents itself. -/
theorem shows_cut_iff :
    (declaration.cut hops).Shows filter kind ↔ declaration.Shows filter kind := by
  rw [← isSome_active?_iff, active?_cut, Option.isSome_map, isSome_active?_iff]

/-- A cut does not change what is presented up to its distance. -/
theorem showsWithin_cut_iff :
    (declaration.cut hops).ShowsWithin filter kind hops ↔
      declaration.ShowsWithin filter kind hops := by
  induction hops generalizing declaration with
  | zero => rw [showsWithin_zero_iff, showsWithin_zero_iff, shows_cut_iff]
  | succ hops ih =>
    rw [showsWithin_succ_iff, showsWithin_succ_iff, shows_cut_iff, annotationTypes_cut]
    -- Cut and seen as a declaration, a type is what it is as a declaration, cut there.
    have further (type : AnnotationType) :
        (type.cut hops).toDeclaration = type.toDeclaration.cut hops := rfl
    simp only [List.mem_map, exists_exists_and_eq_and, further, ih]

/-- A search does not see what is cut off beyond its depth. -/
theorem isRequiredWithin_cut (depth : Nat) :
    isRequiredWithin filter depth (declaration.cut (depth + 1)) =
      isRequiredWithin filter depth declaration := by
  rw [Bool.eq_iff_iff, isRequiredWithin_iff, isRequiredWithin_iff, showsWithin_cut_iff]

/-- **Two hops decide.** A declaration is required if and only if at most two hops, each to
the declaration of the type of an annotation, lead to one that presents the annotation for
that: its first one, with no ignored group. In general the search to a depth decides the
same for one hop more than the depth, and nothing that is declared behind matters to it. -/
theorem isRequired_iff_two_hops (declaration : Declaration) (filter : GroupFilter) :
    metaAnnotationDepth + 1 = 2 ∧
    (declaration.isRequired filter = true ↔
      ∃ hops ≤ 2, ∃ reached, Reaches hops declaration reached ∧
        ∃ use, reached.Presents filter .notNull use) ∧
    (∀ depth, isRequiredWithin filter depth declaration = true ↔
      ∃ hops ≤ depth + 1, ∃ reached, Reaches hops declaration reached ∧
        ∃ use, reached.Presents filter .notNull use) ∧
    ∀ depth other, other.cut (depth + 1) = declaration.cut (depth + 1) →
      isRequiredWithin filter depth other = isRequiredWithin filter depth declaration := by
  refine ⟨rfl, isRequired_iff, fun depth => isRequiredWithin_iff, fun depth other same => ?_⟩
  calc isRequiredWithin filter depth other
      = isRequiredWithin filter depth (other.cut (depth + 1)) := (isRequiredWithin_cut depth).symm
    _ = isRequiredWithin filter depth (declaration.cut (depth + 1)) := by rw [same]
    _ = isRequiredWithin filter depth declaration := isRequiredWithin_cut depth

end Declaration

end ConstraintFacets
