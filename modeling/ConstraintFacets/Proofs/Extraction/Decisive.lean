import Mathlib.Data.List.Find
import Mathlib.Data.List.Nodup
import Mathlib.Logic.Relation
import ConstraintFacets.Projection
import ConstraintFacets.Proofs.Extraction.Collected

/-! # What decides the constraints of a declaration

Of all that is known about a declaration, its constraints depend on its name and, for
every kind of constraint, on the first annotation of the type of that kind: on the groups
of that annotation and on the attributes that the kind asks for. Declarations that agree
in this have the same constraints or the same error, the same description, and add the
same facets to every type. An edit that leaves all this alone is idle
(`ConstraintFacets.Declaration.IdleEdit`), and so is any sequence of idle edits
(`ConstraintFacets.Declaration.extraction_decided`).
-/

namespace ConstraintFacets

/-- Two annotations have the same groups and the same value, or none, of every attribute
that a kind asks for. -/
structure AnnotationUse.AgreesFor (kind : ConstraintKind) (use other : AnnotationUse) : Prop where
  groups : use.groups = other.groups
  attributes : ∀ rule ∈ kind.attributes, use.value? rule.name = other.value? rule.name

variable {kind : ConstraintKind} {use other : AnnotationUse} {filter : GroupFilter}

theorem AnnotationUse.AgreesFor.refl (kind : ConstraintKind) (use : AnnotationUse) :
    use.AgreesFor kind use :=
  ⟨rfl, fun _ _ => rfl⟩

/-- Annotations that agree for a kind are active under the same filters. -/
theorem AnnotationUse.AgreesFor.isActive_eq (agrees : use.AgreesFor kind other) :
    filter.isActive use = filter.isActive other := by
  rw [GroupFilter.isActive, GroupFilter.isActive, agrees.groups]

/-- Reading an annotation looks at the attributes that its kind asks for, and at no
others. -/
theorem ConstraintKind.read_congr
    (same : ∀ rule ∈ kind.attributes, use.value? rule.name = other.value? rule.name) :
    kind.read use = kind.read other := by
  cases kind with
  | null | notNull | isFalse | isTrue | future | past => rfl
  | decimalMax | decimalMin =>
    have value : use.value? "value" = other.value? "value" := same _ (.head _)
    have inclusive : use.value? "inclusive" = other.value? "inclusive" := same _ (.tail _ (.head _))
    simp only [read, AnnotationUse.decimal, AnnotationUse.text, AnnotationUse.mandatory,
      AnnotationUse.flagOr, value, inclusive]
  | digits =>
    have integer : use.value? "integer" = other.value? "integer" := same _ (.head _)
    have fraction : use.value? "fraction" = other.value? "fraction" := same _ (.tail _ (.head _))
    simp only [read, AnnotationUse.shortWord, AnnotationUse.word, AnnotationUse.mandatory,
      integer, fraction]
  | max | min =>
    have value : use.value? "value" = other.value? "value" := same _ (.head _)
    simp only [read, AnnotationUse.word, AnnotationUse.mandatory, value]
  | regexp =>
    have pattern : use.value? "regexp" = other.value? "regexp" := same _ (.head _)
    simp only [read, AnnotationUse.text, AnnotationUse.mandatory, pattern]
  | size =>
    have most : use.value? "max" = other.value? "max" := same _ (.head _)
    have least : use.value? "min" = other.value? "min" := same _ (.tail _ (.head _))
    simp only [read, AnnotationUse.shortWordOr, AnnotationUse.shortWord, AnnotationUse.word,
      AnnotationUse.mandatory, most, least]

namespace Declaration

/-- Two declarations of one name have, for every kind, no annotation of its type, or first
ones that agree for the kind. -/
structure DecidedAlike (first second : Declaration) : Prop where
  name : first.name = second.name
  kinds : ∀ kind : ConstraintKind, Option.Rel (AnnotationUse.AgreesFor kind)
    (first.find? kind.annotationType) (second.find? kind.annotationType)

/-- The same constraints or the same error come from two declarations, the same
description, and the same restrictions of every type. -/
structure ExtractsAlike (first second : Declaration) : Prop where
  constraints : ∀ filter, first.constraints filter = second.constraints filter
  describe : ∀ required filter, first.describe required filter = second.describe required filter
  decorate : ∀ (base : SchemaType) settings,
    base.decorate first settings = base.decorate second settings

variable {first second third : Declaration}

/-- Everything that is extracted depends on the constraints alone. -/
theorem ExtractsAlike.of_constraints
    (same : ∀ filter, first.constraints filter = second.constraints filter) :
    first.ExtractsAlike second where
  constraints := same
  describe := fun required filter => by rw [Declaration.describe, Declaration.describe, same]
  decorate := fun base settings => by rw [SchemaType.decorate, SchemaType.decorate, same]

theorem ExtractsAlike.trans (alike : first.ExtractsAlike second)
    (further : second.ExtractsAlike third) : first.ExtractsAlike third :=
  .of_constraints fun filter => (alike.constraints filter).trans (further.constraints filter)

/-- The same constraint, or the same error, is read from annotations that agree for its kind. -/
theorem readConstraint_congr (named : first.name = second.name) (typed : use.type = other.type)
    (agrees : use.AgreesFor kind other) :
    first.readConstraint kind use = second.readConstraint kind other := by
  rw [readConstraint, readConstraint, ConstraintKind.read_congr agrees.attributes, named, typed]

section DecidedAlike

variable (alike : first.DecidedAlike second)
include alike

/-- Of a kind either both declarations have no active annotation, or they have some that
agree. -/
theorem DecidedAlike.active?_cases (kind : ConstraintKind) (filter : GroupFilter) :
    (first.active? kind filter = none ∧ second.active? kind filter = none) ∨
      ∃ use other, first.active? kind filter = some use ∧
        second.active? kind filter = some other ∧ use.AgreesFor kind other := by
  have related := alike.kinds kind
  rw [active?, active?]
  generalize first.find? kind.annotationType = one at related ⊢
  generalize second.find? kind.annotationType = another at related ⊢
  cases related with
  | none => exact .inl ⟨rfl, rfl⟩
  | @some use other agrees =>
    cases active : filter.isActive use with
    | true =>
      have alsoActive : filter.isActive other = true := agrees.isActive_eq ▸ active
      exact .inr ⟨use, other, by simp [active], by simp [alsoActive], agrees⟩
    | false =>
      have inactive : filter.isActive other = false := agrees.isActive_eq ▸ active
      exact .inl ⟨by simp [active], by simp [inactive]⟩

/-- Declarations that are decided alike have the same constraints of any kinds. -/
theorem DecidedAlike.constraintsOf_eq (filter : GroupFilter) (kinds : List ConstraintKind) :
    first.constraintsOf filter kinds = second.constraintsOf filter kinds := by
  induction kinds with
  | nil => rfl
  | cons kind rest ih =>
    rcases alike.active?_cases kind filter with
      ⟨absent, alsoAbsent⟩ | ⟨use, other, active, alsoActive, agrees⟩
    · rw [constraintsOf_cons_absent absent, constraintsOf_cons_absent alsoAbsent, ih]
    · have typed : use.type = other.type :=
        (active?_eq_some_iff.mp active).2.1.trans (active?_eq_some_iff.mp alsoActive).2.1.symm
      rw [constraintsOf_cons_active active, constraintsOf_cons_active alsoActive, ih,
        readConstraint_congr alike.name typed agrees]

/-- So they have the same constraints, or the same error, under every filter. -/
theorem DecidedAlike.constraints_eq (filter : GroupFilter) :
    first.constraints filter = second.constraints filter := by
  rw [constraints, constraints, alike.constraintsOf_eq]
  rcases alike.active?_cases .null filter with
    ⟨absent, alsoAbsent⟩ | ⟨use, other, active, alsoActive, -⟩
  · rw [absent, alsoAbsent]
  · rw [active, alsoActive]

end DecidedAlike

/-- One edit of a declaration that does not matter to its constraints. -/
inductive IdleEdit (declaration : Declaration) : Declaration → Prop where
  /-- Neighbouring annotations of different types change places. -/
  | reorder {before block reordered after : List AnnotationUse}
      (carried : declaration.annotations = before ++ block ++ after)
      (distinct : (block.map AnnotationUse.type).Nodup) (permuted : reordered.Perm block) :
      IdleEdit declaration { declaration with annotations := before ++ reordered ++ after }
  /-- An annotation that is of no kind comes in anywhere. -/
  | insert {before after : List AnnotationUse} {use : AnnotationUse}
      (carried : declaration.annotations = before ++ after)
      (foreign : ∀ kind : ConstraintKind, use.type ≠ kind.annotationType) :
      IdleEdit declaration { declaration with annotations := before ++ use :: after }
  /-- A further annotation of a type comes in behind all others. -/
  | append {earlier use : AnnotationUse} (carried : earlier ∈ declaration.annotations)
      (typed : use.type = earlier.type) : IdleEdit declaration (declaration.withUse use)
  /-- An annotation gets another definition, and other values of what its kind does not
  ask for. -/
  | alter {before after : List AnnotationUse} {use : AnnotationUse}
      (values : List (String × AnnotationValue)) (definition : Option AnnotationType)
      (carried : declaration.annotations = before ++ use :: after)
      (agrees : ∀ kind : ConstraintKind, use.type = kind.annotationType →
        use.AgreesFor kind ⟨use.type, values, definition⟩) :
      IdleEdit declaration
        { declaration with annotations := before ++ ⟨use.type, values, definition⟩ :: after }
  /-- The declaration moves to another package and gets other tags. -/
  | move (package : Option String) (docTags : List String) :
      IdleEdit declaration { declaration with package, docTags }

theorem rel_find?_self (declaration : Declaration) (kind : ConstraintKind) :
    Option.Rel (AnnotationUse.AgreesFor kind) (declaration.find? kind.annotationType)
      (declaration.find? kind.annotationType) := by
  cases declaration.find? kind.annotationType with
  | none => exact .none
  | some use => exact .some (.refl kind use)

/-- Declarations of one name with the same first annotations are decided alike. -/
theorem DecidedAlike.of_find?_eq (named : first.name = second.name)
    (same : ∀ kind : ConstraintKind,
      first.find? kind.annotationType = second.find? kind.annotationType) :
    first.DecidedAlike second :=
  ⟨named, fun kind => same kind ▸ first.rel_find?_self kind⟩

/-- An idle edit leaves the first annotation of every kind as far as the kind is concerned. -/
theorem IdleEdit.decidedAlike (edit : first.IdleEdit second) : first.DecidedAlike second := by
  cases edit with
  | @reorder before block reordered after carried distinct permuted =>
    refine .of_find?_eq rfl fun kind => ?_
    -- At most one annotation of the block is of the type that is looked for.
    have single : {use ∈ block | decide (use.type = kind.annotationType)}.Subsingleton := by
      rintro use ⟨listed, typed⟩ other ⟨alsoListed, alsoTyped⟩
      rw [decide_eq_true_eq] at typed alsoTyped
      exact List.inj_on_of_nodup_map distinct listed alsoListed (typed.trans alsoTyped.symm)
    have sameBlock := List.find?_eq_find?_of_perm permuted.symm single
    simp only [find?, carried, List.find?_append, sameBlock]
  | @insert before after use carried foreign =>
    refine .of_find?_eq rfl fun kind => ?_
    simp only [find?, carried, List.find?_append, List.find?_cons, foreign kind, decide_false]
  | @append earlier use carried typed =>
    refine .of_find?_eq rfl fun kind => ?_
    simp only [find?, withUse, List.find?_append, List.find?_singleton, typed]
    cases found : first.annotations.find? fun use => use.type = kind.annotationType with
    | some use => rfl
    | none =>
      have differs := List.find?_eq_none.mp found earlier carried
      simpa using differs
  | @alter before after use values definition carried agrees =>
    refine ⟨rfl, fun kind => ?_⟩
    have typed : (⟨use.type, values, definition⟩ : AnnotationUse).type = use.type := rfl
    rcases find?_replace carried typed kind.annotationType with same | ⟨found, alsoFound⟩
    · rw [same]
      exact first.rel_find?_self kind
    · rw [found, alsoFound]
      exact .some (agrees kind (find?_eq_some_iff.mp found).2)
  | move package docTags => exact .of_find?_eq rfl fun kind => rfl

/-- Whatever idle edits follow each other, the same is extracted in the end. -/
theorem extractsAlike_of_edits (edits : Relation.ReflTransGen IdleEdit first second) :
    first.ExtractsAlike second := by
  induction edits with
  | refl => exact .of_constraints fun _ => rfl
  | tail _ edit ih => exact ih.trans (.of_constraints edit.decidedAlike.constraints_eq)

/-- **What decides an extraction.** Two declarations of one name whose first annotations of
each kind agree, or are missing on both, have the same constraints or the same error, the
same description, and decorate every type alike. So whatever a declaration goes through in
a sequence of idle edits, all of this stays the same. -/
theorem extraction_decided (declaration : Declaration) :
    (∀ other, declaration.DecidedAlike other → declaration.ExtractsAlike other) ∧
    (∀ edited, declaration.IdleEdit edited → declaration.DecidedAlike edited) ∧
    ∀ edited, Relation.ReflTransGen IdleEdit declaration edited →
      declaration.ExtractsAlike edited :=
  ⟨fun _ alike => .of_constraints alike.constraints_eq, fun _ edit => edit.decidedAlike,
    fun _ edits => extractsAlike_of_edits edits⟩

end Declaration

end ConstraintFacets
