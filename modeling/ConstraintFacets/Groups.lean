import ConstraintFacets.Annotation.Basic
import ConstraintFacets.NameSet

/-! # Validation groups

A constraint annotation may belong to validation groups. Groups can be ignored;
an annotation stays active unless one of its groups is ignored
(`ConstraintFacets.GroupFilter.isActive`).
-/

namespace ConstraintFacets

/-- The attribute that lists the groups of an annotation. -/
def groupsAttribute : String := "groups"

/-- The groups of an annotation: the class literals of the attribute, without the
blanks around their names. Anything else in the attribute is passed over. -/
def AnnotationUse.groups (use : AnnotationUse) : List String :=
  match use.value? groupsAttribute with
  | some value => (value.toList.filterMap AnnotationValue.classLiteral?).map fun name =>
      String.ofList (Blank.trim name.toList)
  | none => []

/-- The groups that are ignored. -/
structure GroupFilter where
  /-- The names of the ignored groups. -/
  ignored : NameSet
deriving DecidableEq

namespace GroupFilter

/-- The filter that ignores the given groups. -/
def ignoring (groups : List String) : GroupFilter :=
  ⟨NameSet.ofList groups⟩

/-- Whether a group is ignored. -/
def isIgnored (filter : GroupFilter) (group : String) : Bool :=
  group ∈ filter.ignored

/-- Whether no group is ignored. -/
def isEmpty (filter : GroupFilter) : Bool :=
  filter.ignored.isEmpty

/-- Whether an annotation is active: none of its groups is ignored. -/
def isActive (filter : GroupFilter) (use : AnnotationUse) : Bool :=
  !use.groups.any filter.isIgnored

end GroupFilter

end ConstraintFacets
