import ConstraintFacets.Constraint.Extraction
import ConstraintFacets.Proofs.Extraction.Attributes

/-! # The constraints that a declaration has

A declaration presents a kind of constraint if the first annotation of the type
of that kind is active (`ConstraintFacets.Declaration.Presents`). A declaration
that presents the kind of values that must be null has this one constraint. Any
other declaration has one constraint of each kind that it presents, in the order
of kinds, unless an annotation is unusable; the least kind with an unusable
annotation is then reported
(`ConstraintFacets.Declaration.constraints_characterization`).
-/

namespace ConstraintFacets

/-- An annotation is active just if none of its groups is ignored. -/
theorem GroupFilter.isActive_iff {filter : GroupFilter} {use : AnnotationUse} :
    filter.isActive use ↔ ∀ group ∈ use.groups, group ∉ filter.ignored := by
  simp [isActive, isIgnored]

namespace Declaration

/-- An annotation is the first one of the type of a kind on a declaration, and
none of its groups is ignored. -/
def Presents (declaration : Declaration) (filter : GroupFilter) (kind : ConstraintKind)
    (use : AnnotationUse) : Prop :=
  (∃ before after, declaration.annotations = before ++ use :: after ∧
    ∀ earlier ∈ before, earlier.type ≠ kind.annotationType) ∧
  use.type = kind.annotationType ∧ ∀ group ∈ use.groups, group ∉ filter.ignored

/-- A list holds one constraint of each kind that a declaration presents, in the
order of kinds, each with the attributes of its annotation. -/
structure Collects (declaration : Declaration) (filter : GroupFilter)
    (constraints : List Constraint) : Prop where
  increasing : (constraints.map Constraint.kind).Pairwise (· < ·)
  complete : ∀ kind, kind ∈ constraints.map Constraint.kind ↔
    ∃ use, declaration.Presents filter kind use
  carried : ∀ constraint ∈ constraints, ∀ use,
    declaration.Presents filter constraint.kind use → use.Carries constraint

/-- A kind is the least one that a declaration presents with an unusable
annotation, and the fault of that annotation is the given one. -/
def LeastFault (declaration : Declaration) (filter : GroupFilter) (kind : ConstraintKind)
    (broken : AttributeError) : Prop :=
  (∃ use, declaration.Presents filter kind use ∧ kind.firstError? use = some broken) ∧
  ∀ smaller < kind, ∀ use, declaration.Presents filter smaller use → use.IsUsable smaller

variable {declaration : Declaration} {filter : GroupFilter}

/-- The active annotation of a kind is the one by which the declaration presents that kind. -/
theorem active?_eq_some_iff {kind : ConstraintKind} {use : AnnotationUse} :
    declaration.active? kind filter = some use ↔ declaration.Presents filter kind use := by
  rw [active?, Option.filter_eq_some_iff, find?_eq_some_iff, GroupFilter.isActive_iff, IsFirst,
    and_assoc, Presents]

/-- A constraint is read just if it is of the kind and has the attributes of the annotation. -/
theorem readConstraint_eq_ok_iff {kind : ConstraintKind} {use : AnnotationUse}
    {constraint : Constraint} :
    declaration.readConstraint kind use = .ok constraint ↔
      constraint.kind = kind ∧ use.Carries constraint := by
  rw [← ConstraintKind.read_eq_ok_iff]
  unfold readConstraint
  cases kind.read use <;> simp

/-- The error says what is broken first, on which annotation and on which declaration. -/
theorem readConstraint_eq_error_iff {kind : ConstraintKind} {use : AnnotationUse}
    {error : AnnotationError} :
    declaration.readConstraint kind use = .error error ↔
      ∃ broken, kind.firstError? use = some broken ∧
        error = ⟨broken.fault, some use.type, some broken.name, some declaration.name⟩ := by
  rw [← ConstraintKind.errorOf?_read]
  unfold readConstraint
  cases kind.read use <;> simp [eq_comm]

variable {kinds : List ConstraintKind}

/-- A kind without an active annotation is passed over. -/
theorem constraintsOf_cons_absent {kind : ConstraintKind}
    (absent : declaration.active? kind filter = none) :
    declaration.constraintsOf filter (kind :: kinds) = declaration.constraintsOf filter kinds := by
  simp only [constraintsOf, absent]

/-- A kind with an active annotation gives its constraint before those of later kinds. -/
theorem constraintsOf_cons_active {kind : ConstraintKind} {use : AnnotationUse}
    (active : declaration.active? kind filter = some use) :
    declaration.constraintsOf filter (kind :: kinds) =
      (declaration.readConstraint kind use >>= fun constraint =>
        declaration.constraintsOf filter kinds >>= fun others => .ok (constraint :: others)) := by
  simp only [constraintsOf, active]

/-- Constraints are collected just if that of the first kind can be read and those of the
others can be collected. -/
theorem constraintsOf_cons_eq_ok_iff {kind : ConstraintKind} {use : AnnotationUse}
    {constraints : List Constraint} (active : declaration.active? kind filter = some use) :
    declaration.constraintsOf filter (kind :: kinds) = .ok constraints ↔
      ∃ constraint others, declaration.readConstraint kind use = .ok constraint ∧
        declaration.constraintsOf filter kinds = .ok others ∧
        constraints = constraint :: others := by
  rw [constraintsOf_cons_active active, bind_eq_ok_iff]
  constructor
  · rintro ⟨constraint, read, continued⟩
    obtain ⟨others, collectedRest, same⟩ := bind_eq_ok_iff.mp continued
    exact ⟨constraint, others, read, collectedRest, (Except.ok.inj same).symm⟩
  · rintro ⟨constraint, others, read, collectedRest, rfl⟩
    exact ⟨constraint, read, bind_eq_ok_iff.mpr ⟨others, collectedRest, rfl⟩⟩

/-- What is collected has the kinds that are active, in their order. -/
theorem kinds_of_constraintsOf {constraints : List Constraint}
    (collected : declaration.constraintsOf filter kinds = .ok constraints) :
    constraints.map Constraint.kind =
      kinds.filter fun kind => (declaration.active? kind filter).isSome := by
  induction kinds generalizing constraints with
  | nil =>
      cases collected
      rfl
  | cons kind rest ih =>
      cases active : declaration.active? kind filter with
      | none =>
          rw [constraintsOf_cons_absent active] at collected
          simpa [active] using ih collected
      | some use =>
          obtain ⟨constraint, others, read, collectedRest, rfl⟩ :=
            (constraintsOf_cons_eq_ok_iff active).mp collected
          have ofKind : constraint.kind = kind := (readConstraint_eq_ok_iff.mp read).1
          simpa [active, ofKind] using ih collectedRest

/-- Everything collected carries the attributes of the active annotation of its
kind. -/
theorem carries_of_constraintsOf {constraints : List Constraint}
    (collected : declaration.constraintsOf filter kinds = .ok constraints) :
    ∀ constraint ∈ constraints, ∃ use,
      declaration.active? constraint.kind filter = some use ∧ use.Carries constraint := by
  induction kinds generalizing constraints with
  | nil =>
      cases collected
      simp
  | cons kind rest ih =>
      cases active : declaration.active? kind filter with
      | none =>
          rw [constraintsOf_cons_absent active] at collected
          exact ih collected
      | some use =>
          obtain ⟨constraint, others, read, collectedRest, rfl⟩ :=
            (constraintsOf_cons_eq_ok_iff active).mp collected
          obtain ⟨ofKind, carries⟩ := readConstraint_eq_ok_iff.mp read
          intro member listed
          rcases List.mem_cons.mp listed with rfl | later
          · exact ⟨use, ofKind ▸ active, carries⟩
          · exact ih collectedRest member later

/-- An error reports the first kind of a list whose active annotation is
unusable. -/
def ReportsFirst (declaration : Declaration) (filter : GroupFilter) (kinds : List ConstraintKind)
    (error : AnnotationError) : Prop :=
  ∃ before kind after use broken, kinds = before ++ kind :: after ∧
    declaration.active? kind filter = some use ∧ kind.firstError? use = some broken ∧
    error = ⟨broken.fault, some use.type, some broken.name, some declaration.name⟩ ∧
    ∀ earlier ∈ before, ∀ other, declaration.active? earlier filter = some other →
      other.IsUsable earlier

/-- A kind that is not active or can be read is passed over. -/
theorem ReportsFirst.cons {kind : ConstraintKind} {error : AnnotationError}
    (reports : declaration.ReportsFirst filter kinds error)
    (usable : ∀ use, declaration.active? kind filter = some use → use.IsUsable kind) :
    declaration.ReportsFirst filter (kind :: kinds) error := by
  obtain ⟨before, blamed, after, use, broken, split, active, reported, named, first⟩ := reports
  have longer : kind :: kinds = kind :: before ++ blamed :: after := congrArg _ split
  refine ⟨kind :: before, blamed, after, use, broken, longer, active, reported, named, ?_⟩
  intro earlier listed
  rcases List.mem_cons.mp listed with rfl | later
  · exact usable
  · exact first earlier later

/-- An annotation from which a constraint is read is usable. -/
theorem isUsable_of_readConstraint {kind : ConstraintKind} {use : AnnotationUse}
    {constraint : Constraint} (read : declaration.readConstraint kind use = .ok constraint) :
    use.IsUsable kind := by
  rw [← ConstraintKind.firstError?_eq_none_iff, ← ConstraintKind.errorOf?_read,
    ConstraintKind.read_eq_ok_iff.mpr (readConstraint_eq_ok_iff.mp read)]
  rfl

/-- If collecting fails, the error is that of the first kind whose annotation is unusable. -/
theorem reportsFirst_of_constraintsOf {error : AnnotationError}
    (failed : declaration.constraintsOf filter kinds = .error error) :
    declaration.ReportsFirst filter kinds error := by
  induction kinds with
  | nil => cases failed
  | cons kind rest ih =>
      cases active : declaration.active? kind filter with
      | none =>
          rw [constraintsOf_cons_absent active] at failed
          exact (ih failed).cons (by simp [active])
      | some use =>
          rw [constraintsOf_cons_active active, bind_eq_error_iff] at failed
          rcases failed with unread | ⟨constraint, read, continued⟩
          · obtain ⟨broken, reported, named⟩ := readConstraint_eq_error_iff.mp unread
            exact ⟨[], kind, rest, use, broken, rfl, active, reported, named, by simp⟩
          · have failedRest : declaration.constraintsOf filter rest = .error error := by
              rcases bind_eq_error_iff.mp continued with failed | ⟨others, _, impossible⟩
              · exact failed
              · cases impossible
            -- The kind was read, so the report is on a later one.
            apply (ih failedRest).cons
            intro other found
            rw [active] at found
            cases found
            exact isUsable_of_readConstraint read

/-- If nothing fails, every active annotation of the kinds is usable. -/
theorem isUsable_of_constraintsOf {constraints : List Constraint} {kind : ConstraintKind}
    {use : AnnotationUse} (collected : declaration.constraintsOf filter kinds = .ok constraints)
    (listed : kind ∈ kinds) (active : declaration.active? kind filter = some use) :
    use.IsUsable kind := by
  have found : kind ∈ constraints.map Constraint.kind := by
    rw [kinds_of_constraintsOf collected, List.mem_filter, active]
    exact ⟨listed, rfl⟩
  obtain ⟨constraint, member, rfl⟩ := List.mem_map.mp found
  obtain ⟨other, alsoActive, carries⟩ := carries_of_constraintsOf collected constraint member
  rw [active] at alsoActive
  cases alsoActive
  have read : declaration.readConstraint constraint.kind use = .ok constraint :=
    readConstraint_eq_ok_iff.mpr ⟨rfl, carries⟩
  exact isUsable_of_readConstraint read

end Declaration

/-- In a strictly increasing list the kinds before a kind are those below it. -/
theorem ConstraintKind.mem_before_of_lt {before after : List ConstraintKind}
    {kind smaller : ConstraintKind} (split : all = before ++ kind :: after)
    (less : smaller < kind) : smaller ∈ before := by
  have increasing : (before ++ kind :: after).Pairwise (· < ·) := split ▸ pairwise_all
  have behind : ∀ later ∈ after, kind < later := fun _ =>
    List.rel_of_pairwise_cons (List.pairwise_append.mp increasing).2.1
  have listed : smaller ∈ before ++ kind :: after := split ▸ mem_all smaller
  rcases List.mem_append.mp listed with early | late
  · exact early
  · rcases List.mem_cons.mp late with rfl | later
    · exact absurd less (Nat.lt_irrefl _)
    · exact absurd less (Nat.lt_asymm (behind smaller later))

/-- Of two different kinds one is less than the other. -/
theorem ConstraintKind.lt_trichotomy (first second : ConstraintKind) :
    first < second ∨ first = second ∨ second < first := by
  have placed (kind : ConstraintKind) : all[kind.rank]? = some kind := by
    cases kind <;> rfl
  rcases Nat.lt_trichotomy first.rank second.rank with less | same | greater
  · exact .inl less
  · exact .inr (.inl (Option.some.inj ((placed first).symm.trans (same ▸ placed second))))
  · exact .inr (.inr greater)

namespace Declaration

variable {declaration : Declaration} {filter : GroupFilter}

theorem Presents.eq {kind : ConstraintKind} {use other : AnnotationUse}
    (presents : declaration.Presents filter kind use)
    (also : declaration.Presents filter kind other) : use = other := by
  rw [← active?_eq_some_iff] at presents also
  exact Option.some.inj (presents.symm.trans also)

/-- An annotation with something to report is not usable. -/
theorem not_isUsable_of_firstError? {kind : ConstraintKind} {use : AnnotationUse}
    {broken : AttributeError} (reported : kind.firstError? use = some broken) :
    ¬ use.IsUsable kind := by
  rw [← ConstraintKind.firstError?_eq_none_iff, reported]
  exact Option.some_ne_none broken

/-- There is one least kind with an unusable annotation at most, and one fault of it. -/
theorem LeastFault.eq {kind other : ConstraintKind} {broken also : AttributeError}
    (least : declaration.LeastFault filter kind broken)
    (alsoLeast : declaration.LeastFault filter other also) : kind = other ∧ broken = also := by
  obtain ⟨⟨use, presents, reported⟩, below⟩ := least
  obtain ⟨⟨second, alsoPresents, alsoReported⟩, alsoBelow⟩ := alsoLeast
  rcases ConstraintKind.lt_trichotomy kind other with less | rfl | greater
  · exact absurd (alsoBelow kind less use presents) (not_isUsable_of_firstError? reported)
  · rw [presents.eq alsoPresents, alsoReported] at reported
    exact ⟨rfl, (Option.some.inj reported).symm⟩
  · exact absurd (below other greater second alsoPresents)
      (not_isUsable_of_firstError? alsoReported)

/-- An active annotation of values that must be null leaves that as the only constraint. -/
theorem constraints_of_presents_null {use : AnnotationUse}
    (presents : declaration.Presents filter .null use) :
    declaration.constraints filter = .ok [.null] := by
  unfold constraints
  rw [active?_eq_some_iff.mpr presents]

/-- Without such an annotation the constraints of all kinds are collected. -/
theorem constraints_eq_constraintsOf
    (absent : ¬ ∃ use, declaration.Presents filter .null use) :
    declaration.constraints filter = declaration.constraintsOf filter ConstraintKind.all := by
  unfold constraints
  cases active : declaration.active? .null filter with
  | none => rfl
  | some use => exact absurd ⟨use, active?_eq_some_iff.mp active⟩ absent

/-- What is collected is one constraint for each kind that is presented. -/
theorem collects_of_constraintsOf {constraints : List Constraint}
    (collected : declaration.constraintsOf filter ConstraintKind.all = .ok constraints) :
    declaration.Collects filter constraints where
  increasing := by
    rw [kinds_of_constraintsOf collected]
    apply List.Pairwise.filter
    exact ConstraintKind.pairwise_all
  complete := by
    intro kind
    rw [kinds_of_constraintsOf collected, List.mem_filter, Option.isSome_iff_exists]
    simp only [ConstraintKind.mem_all, true_and, active?_eq_some_iff]
  carried := by
    intro constraint listed use presents
    obtain ⟨other, active, carries⟩ := carries_of_constraintsOf collected constraint listed
    rw [active?_eq_some_iff.mpr presents] at active
    cases active
    exact carries

/-- What a declaration has, when nothing fails. -/
theorem collects_or_null_of_constraints {constraints : List Constraint}
    (collected : declaration.constraints filter = .ok constraints) :
    ((∃ use, declaration.Presents filter .null use) ∧ constraints = [.null]) ∨
      ((¬ ∃ use, declaration.Presents filter .null use) ∧
        declaration.Collects filter constraints) := by
  by_cases present : ∃ use, declaration.Presents filter .null use
  · obtain ⟨use, presents⟩ := present
    rw [constraints_of_presents_null presents] at collected
    cases collected
    exact .inl ⟨⟨use, presents⟩, rfl⟩
  · rw [constraints_eq_constraintsOf present] at collected
    exact .inr ⟨present, collects_of_constraintsOf collected⟩

/-- The constraints of a declaration are of different kinds, in the order of kinds. -/
theorem increasing_of_constraints {constraints : List Constraint}
    (collected : declaration.constraints filter = .ok constraints) :
    (constraints.map Constraint.kind).Pairwise (· < ·) := by
  rcases collects_or_null_of_constraints collected with ⟨-, rfl⟩ | ⟨-, collects⟩
  · exact List.pairwise_singleton _ _
  · exact collects.increasing

/-- If collecting fails, the error is that of the least kind whose annotation is unusable. -/
theorem leastFault_of_constraintsOf {error : AnnotationError}
    (failed : declaration.constraintsOf filter ConstraintKind.all = .error error) :
    ∃ kind broken, declaration.LeastFault filter kind broken ∧
      error = ⟨broken.fault, some kind.annotationType, some broken.name,
        some declaration.name⟩ := by
  obtain ⟨before, kind, after, use, broken, split, active, reported, named, first⟩ :=
    reportsFirst_of_constraintsOf failed
  have presents := active?_eq_some_iff.mp active
  refine ⟨kind, broken, ⟨⟨use, presents, reported⟩, ?_⟩, ?_⟩
  · intro smaller less other alsoPresents
    apply first smaller (ConstraintKind.mem_before_of_lt split less)
    exact active?_eq_some_iff.mpr alsoPresents
  · rw [named, presents.2.1]

/-- The least kind with an unusable annotation is reported, unless values must be null. -/
theorem constraints_of_leastFault {kind : ConstraintKind} {broken : AttributeError}
    (absent : ¬ ∃ use, declaration.Presents filter .null use)
    (least : declaration.LeastFault filter kind broken) :
    declaration.constraints filter = .error ⟨broken.fault, some kind.annotationType,
      some broken.name, some declaration.name⟩ := by
  rw [constraints_eq_constraintsOf absent]
  cases result : declaration.constraintsOf filter ConstraintKind.all with
  | ok constraints =>
    obtain ⟨⟨use, presents, reported⟩, -⟩ := least
    have usable : use.IsUsable kind := isUsable_of_constraintsOf result
      (ConstraintKind.mem_all kind) (active?_eq_some_iff.mpr presents)
    exact absurd usable (not_isUsable_of_firstError? reported)
  | error error =>
    obtain ⟨other, also, alsoLeast, rfl⟩ := leastFault_of_constraintsOf result
    obtain ⟨rfl, rfl⟩ := least.eq alsoLeast
    rfl

/-- There are constraints, perhaps none, if every annotation that counts is usable. -/
theorem exists_constraints_of_usable
    (usable : ∀ kind use, declaration.Presents filter kind use → use.IsUsable kind) :
    ∃ constraints, declaration.constraints filter = .ok constraints := by
  by_cases present : ∃ use, declaration.Presents filter .null use
  · obtain ⟨use, presents⟩ := present
    exact ⟨_, constraints_of_presents_null presents⟩
  · rw [constraints_eq_constraintsOf present]
    cases result : declaration.constraintsOf filter ConstraintKind.all with
    | ok constraints => exact ⟨constraints, rfl⟩
    | error error =>
      obtain ⟨kind, broken, ⟨⟨use, presents, reported⟩, -⟩, -⟩ :=
        leastFault_of_constraintsOf result
      exact absurd (usable kind use presents) (not_isUsable_of_firstError? reported)

/-- **The constraints of a declaration.** One that presents the kind of values that
must be null has this constraint and no other, whatever else is on it. Another one
fails if and only if an annotation that it presents is unusable; the error names the
annotation type of the least kind with such an annotation, the first broken
attribute of it, and the declaration. If none is unusable, there is one constraint of
each kind that is presented, in the order of kinds. -/
theorem constraints_characterization (declaration : Declaration) (filter : GroupFilter) :
    ((∃ use, declaration.Presents filter .null use) →
      declaration.constraints filter = .ok [.null]) ∧
    ((¬ ∃ use, declaration.Presents filter .null use) →
      ((∃ error, declaration.constraints filter = .error error) ↔
        ∃ kind use, declaration.Presents filter kind use ∧ ¬ use.IsUsable kind) ∧
      (∀ error, declaration.constraints filter = .error error →
        ∃ kind broken, declaration.LeastFault filter kind broken ∧
          (∃ rule ∈ kind.attributes, rule.name = broken.name) ∧
          error = ⟨broken.fault, some kind.annotationType, some broken.name,
            some declaration.name⟩) ∧
      ((∀ kind use, declaration.Presents filter kind use → use.IsUsable kind) →
        ∃ constraints, declaration.constraints filter = .ok constraints ∧
          declaration.Collects filter constraints)) := by
  refine ⟨fun ⟨use, presents⟩ => constraints_of_presents_null presents, fun absent => ?_⟩
  rw [constraints_eq_constraintsOf absent]
  have unusable_of_error {error : AnnotationError}
      (failed : declaration.constraintsOf filter ConstraintKind.all = .error error) :
      ∃ kind use, declaration.Presents filter kind use ∧ ¬ use.IsUsable kind := by
    obtain ⟨kind, broken, ⟨⟨use, presents, reported⟩, _⟩, _⟩ := leastFault_of_constraintsOf failed
    refine ⟨kind, use, presents, ?_⟩
    rw [← ConstraintKind.firstError?_eq_none_iff, reported]
    exact Option.some_ne_none broken
  refine ⟨⟨fun ⟨error, failed⟩ => unusable_of_error failed, ?_⟩, ?_, ?_⟩
  · intro broken
    obtain ⟨kind, use, presents, unusable⟩ := broken
    cases result : declaration.constraintsOf filter ConstraintKind.all with
    | error error => exact ⟨error, rfl⟩
    | ok constraints =>
        have usable : use.IsUsable kind := isUsable_of_constraintsOf result
          (ConstraintKind.mem_all kind) (active?_eq_some_iff.mpr presents)
        exact absurd usable unusable
  · intro error failed
    obtain ⟨kind, broken, least, named⟩ := leastFault_of_constraintsOf failed
    obtain ⟨use, _, reported⟩ := least.1
    obtain ⟨rule, listed, sameName, _⟩ := ConstraintKind.exists_rule_of_firstError? reported
    exact ⟨kind, broken, least, ⟨rule, listed, sameName⟩, named⟩
  · intro usable
    cases result : declaration.constraintsOf filter ConstraintKind.all with
    | error error =>
        obtain ⟨kind, use, presents, unusable⟩ := unusable_of_error result
        exact absurd (usable kind use presents) unusable
    | ok constraints => exact ⟨constraints, rfl, collects_of_constraintsOf result⟩

end Declaration

end ConstraintFacets
