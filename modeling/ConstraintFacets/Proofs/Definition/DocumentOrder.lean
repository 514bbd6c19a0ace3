import ConstraintFacets.Checker

/-! # Document order

A definition is found in a list by the path that leads to it: its place in the
list, or the place of a complex type and then a path among the definitions inside
that type (`ConstraintFacets.TypeDefinition.at?`). Document order is the order of
paths as sequences of places, so that a complex type comes before what is inside
it. There is one list of all definitions with their paths in this order
(`ConstraintFacets.TypeDefinition.inDocumentOrder_iff`).

A checker looks at each definition of a list, at any depth, exactly once and in
document order, whatever it finds
(`ConstraintFacets.Checker.checkAll_inDocumentOrder`). The warnings and the errors
of a report are its findings taken apart.
-/

namespace ConstraintFacets

namespace TypeDefinition

/-- The definitions directly inside a definition, in order. -/
def nestedTypes : TypeDefinition → List TypeDefinition
  | simple _ => []
  | complex type => type.nestedTypes

/-- The definition to which a path leads. -/
def at? : List TypeDefinition → List Nat → Option TypeDefinition
  | _, [] => none
  | definitions, [place] => definitions[place]?
  | definitions, place :: next :: deeper =>
    definitions[place]?.bind fun definition => at? definition.nestedTypes (next :: deeper)

/-- The entries hold each definition, at any depth, under its path, and the paths
increase. -/
structure InDocumentOrder (definitions : List TypeDefinition)
    (entries : List (List Nat × TypeDefinition)) : Prop where
  increasing : entries.Pairwise fun first second => first.1 < second.1
  complete : ∀ path definition,
    (path, definition) ∈ entries ↔ at? definitions path = some definition

mutual

/-- The definitions inside a definition with their paths from there. -/
def inside : TypeDefinition → List (List Nat × TypeDefinition)
  | .simple _ => []
  | .complex ⟨_, _, _, _, nestedTypes⟩ => entriesFrom 0 nestedTypes

/-- The definitions of a list and those inside them, when the first definition has
a given place. -/
def entriesFrom (place : Nat) : List TypeDefinition → List (List Nat × TypeDefinition)
  | [] => []
  | definition :: rest =>
    ([place], definition) ::
      definition.inside.map (fun entry => (place :: entry.1, entry.2)) ++
        entriesFrom (place + 1) rest

end

/-- The definitions of a list, at any depth, with their paths in document order. -/
def documentOrder (definitions : List TypeDefinition) : List (List Nat × TypeDefinition) :=
  entriesFrom 0 definitions

variable {definition found : TypeDefinition} {definitions rest : List TypeDefinition}
  {path deeper : List Nat} {place : Nat}

theorem at?_nil : at? [] path = none := by
  match path with
  | [] | [_] | _ :: _ :: _ => rfl

theorem at?_cons_zero :
    at? (definition :: rest) (0 :: deeper) = some found ↔
      (deeper = [] ∧ definition = found) ∨ at? definition.nestedTypes deeper = some found := by
  cases deeper <;> simp [at?]

theorem at?_cons_succ :
    at? (definition :: rest) ((place + 1) :: deeper) = at? rest (place :: deeper) := by
  cases deeper <;> simp [at?]

/-- A path that leads somewhere has a first place, counted from zero. -/
theorem exists_place_iff :
    (∃ place deeper, path = (0 + place) :: deeper ∧
      at? definitions (place :: deeper) = some found) ↔ at? definitions path = some found := by
  constructor
  · rintro ⟨place, deeper, rfl, leads⟩
    rwa [Nat.zero_add]
  · intro leads
    cases path with
    | nil => simp [at?] at leads
    | cons place deeper => exact ⟨place, deeper, by rw [Nat.zero_add], leads⟩

/-- An entry is the first definition, one inside it, or one of the rest, whose places come
later. -/
theorem mem_entriesFrom_cons :
    (path, found) ∈ entriesFrom place (definition :: rest) ↔
      (path = [place] ∧ definition = found) ∨
        (∃ deeper, path = place :: deeper ∧ (deeper, found) ∈ definition.inside) ∨
        (path, found) ∈ entriesFrom (place + 1) rest := by
  rw [entriesFrom, List.mem_append, List.mem_cons, List.mem_map, or_assoc]
  refine or_congr (by rw [Prod.mk.injEq, eq_comm (a := found)]) (or_congr ?_ Iff.rfl)
  constructor
  · rintro ⟨⟨deeper, inner⟩, member, same⟩
    cases same
    exact ⟨deeper, rfl, member⟩
  · rintro ⟨deeper, rfl, member⟩
    exact ⟨(deeper, found), member, rfl⟩

-- By recursion on the definitions, along which the entries are listed.
mutual

/-- The entries inside a definition are what paths among its nested types lead to. -/
theorem mem_inside (definition : TypeDefinition) {path : List Nat} {found : TypeDefinition} :
    (path, found) ∈ definition.inside ↔ at? definition.nestedTypes path = some found := by
  match definition with
  | .simple _ => simp [inside, nestedTypes, at?_nil]
  | .complex ⟨_, _, _, _, nested⟩ =>
    rw [inside, mem_entriesFrom nested, exists_place_iff, nestedTypes]

/-- The first place on a path counts from the place of the first definition. -/
theorem mem_entriesFrom (definitions : List TypeDefinition) {first : Nat} {path : List Nat}
    {found : TypeDefinition} :
    (path, found) ∈ entriesFrom first definitions ↔
      ∃ place deeper, path = (first + place) :: deeper ∧
        at? definitions (place :: deeper) = some found := by
  match definitions with
  | [] => simp [entriesFrom, at?_nil]
  | definition :: rest =>
    rw [mem_entriesFrom_cons, mem_entriesFrom rest]
    constructor
    · rintro (⟨rfl, rfl⟩ | ⟨deeper, rfl, member⟩ | ⟨place, deeper, rfl, leads⟩)
      · exact ⟨0, [], rfl, at?_cons_zero.mpr (.inl ⟨rfl, rfl⟩)⟩
      · exact ⟨0, deeper, rfl, at?_cons_zero.mpr (.inr ((mem_inside definition).mp member))⟩
      · exact ⟨place + 1, deeper, by rw [Nat.add_assoc, Nat.add_comm 1], at?_cons_succ.trans leads⟩
    · rintro ⟨place, deeper, rfl, leads⟩
      cases place with
      | zero =>
        rcases at?_cons_zero.mp leads with ⟨rfl, rfl⟩ | within
        · exact .inl ⟨rfl, rfl⟩
        · exact .inr (.inl ⟨deeper, rfl, (mem_inside definition).mpr within⟩)
      | succ place =>
        rw [at?_cons_succ] at leads
        exact .inr (.inr ⟨place, deeper, by rw [Nat.add_assoc, Nat.add_comm 1], leads⟩)

end

theorem ne_nil_of_mem_inside {entry : List Nat × TypeDefinition}
    (member : entry ∈ definition.inside) : entry.1 ≠ [] := by
  intro empty
  have leads : at? definition.nestedTypes entry.1 = some entry.2 :=
    (mem_inside definition).mp member
  simp [empty, at?] at leads

/-- All paths that start at a later place come after those that start at an earlier one. -/
theorem lt_of_mem_entriesFrom {later : Nat} {entry : List Nat × TypeDefinition}
    (member : entry ∈ entriesFrom later definitions) (before : place < later) :
    place :: deeper < entry.1 := by
  obtain ⟨path, found⟩ := entry
  obtain ⟨further, next, rfl, -⟩ := (mem_entriesFrom definitions).mp member
  exact List.cons_lt_cons_iff.mpr (.inl (by omega))

mutual

/-- The paths inside a definition increase. -/
theorem increasing_inside (definition : TypeDefinition) :
    definition.inside.Pairwise fun first second => first.1 < second.1 := by
  match definition with
  | .simple _ => exact .nil
  | .complex ⟨_, _, _, _, nested⟩ => exact increasing_entriesFrom nested

/-- The paths of a list increase: into a definition they are longer, and those to later ones
start with a later place. -/
theorem increasing_entriesFrom (definitions : List TypeDefinition) {place : Nat} :
    (entriesFrom place definitions).Pairwise fun first second => first.1 < second.1 := by
  match definitions with
  | [] => exact .nil
  | definition :: rest =>
    rw [entriesFrom]
    refine List.pairwise_append.mpr
      ⟨List.pairwise_cons.mpr ⟨?_, ?_⟩, increasing_entriesFrom rest, ?_⟩
    · -- A definition comes before what is inside it.
      intro entry member
      obtain ⟨inner, within, rfl⟩ := List.mem_map.mp member
      refine List.cons_lt_cons_iff.mpr (.inr ⟨rfl, ?_⟩)
      obtain ⟨place, deeper, path⟩ := List.exists_cons_of_ne_nil (ne_nil_of_mem_inside within)
      exact path ▸ List.nil_lt_cons place deeper
    · refine List.pairwise_map.mpr ((increasing_inside definition).imp fun smaller => ?_)
      exact List.cons_lt_cons_iff.mpr (.inr ⟨rfl, smaller⟩)
    · -- What is inside it comes before the definitions behind it.
      intro early member late behind
      have start : ∃ deeper, early.1 = place :: deeper := by
        rcases List.mem_cons.mp member with rfl | member
        · exact ⟨[], rfl⟩
        · obtain ⟨inner, -, rfl⟩ := List.mem_map.mp member
          exact ⟨inner.1, rfl⟩
      obtain ⟨deeper, same⟩ := start
      rw [same]
      exact lt_of_mem_entriesFrom behind (Nat.lt_succ_self place)

end

/-- The list of all definitions is complete and in order. -/
theorem inDocumentOrder_documentOrder (definitions : List TypeDefinition) :
    InDocumentOrder definitions (documentOrder definitions) where
  increasing := increasing_entriesFrom definitions
  complete path definition := by rw [documentOrder, mem_entriesFrom, exists_place_iff]

variable {entries : List (List Nat × TypeDefinition)}

/-- No definition is listed twice under one path. -/
theorem InDocumentOrder.nodup (ordered : InDocumentOrder definitions entries) :
    entries.Nodup := by
  refine ordered.increasing.imp fun {first second} smaller same => ?_
  exact List.lt_irrefl first.1 (same ▸ smaller)

/-- There is one list in document order. -/
theorem inDocumentOrder_iff :
    InDocumentOrder definitions entries ↔ entries = documentOrder definitions := by
  constructor
  · intro ordered
    have listed := inDocumentOrder_documentOrder definitions
    have same : entries.Perm (documentOrder definitions) := by
      refine (List.perm_ext_iff_of_nodup ordered.nodup listed.nodup).mpr fun entry => ?_
      exact (ordered.complete entry.1 entry.2).trans (listed.complete entry.1 entry.2).symm
    refine same.eq_of_pairwise (fun first second _ _ smaller greater => ?_)
      ordered.increasing listed.increasing
    exact absurd greater (List.lt_asymm smaller)
  · rintro rfl
    exact inDocumentOrder_documentOrder definitions

example :
    (documentOrder [.complex { name := "Order", nestedTypes := [.simple { name := "Code" }] },
      .simple { name := "Note" }]).map (fun entry => (entry.1, entry.2.name)) =
      [([0], "Order"), ([0, 0], "Code"), ([1], "Note")] := rfl

end TypeDefinition

namespace Report

/-- A list of findings taken apart into warnings and errors, each in order. -/
inductive Splits : List Finding → List Finding → List Finding → Prop
  | nil : Splits [] [] []
  | warning {finding findings warnings errors} (grave : finding.severity = .warning)
      (rest : Splits findings warnings errors) :
      Splits (finding :: findings) (finding :: warnings) errors
  | error {finding findings warnings errors} (grave : finding.severity = .error)
      (rest : Splits findings warnings errors) :
      Splits (finding :: findings) warnings (finding :: errors)

/-- The warnings and the errors of a report are its findings taken apart, each in order. -/
theorem splits (report : Report) : Splits report.findings report.warnings report.errors := by
  obtain ⟨findings⟩ := report
  induction findings with
  | nil => exact .nil
  | cons finding rest ih =>
    cases grave : finding.severity with
    | warning => simpa [warnings, errors, ofSeverity, grave] using Splits.warning grave ih
    | error => simpa [warnings, errors, ofSeverity, grave] using Splits.error grave ih

theorem append_assoc (first second third : Report) :
    first ++ second ++ third = first ++ (second ++ third) :=
  congrArg Report.mk (List.append_assoc ..)

/-- A report has errors just if one of its findings is an error. -/
theorem hasErrors_iff {report : Report} :
    report.hasErrors = true ↔ ∃ finding ∈ report.findings, finding.severity = .error := by
  simp [hasErrors, errors, ofSeverity]

end Report

namespace Checker

open TypeDefinition

/-- The findings about a definition, without those about what is inside it. -/
def look (checker : Checker) : TypeDefinition → Report
  | .simple type => checker.simple type
  | .complex type => checker.complex type

variable {checker : Checker}

mutual

/-- Checking a definition looks at it and then at each definition inside it, in document order. -/
theorem findings_check (definition : TypeDefinition) :
    (checker.check definition).findings = (checker.look definition).findings ++
      definition.inside.flatMap fun entry => (checker.look entry.2).findings := by
  match definition with
  | .simple _ => simp [check, look, inside]
  | .complex ⟨_, _, _, _, nested⟩ =>
    rw [check, Report.findings_append, findings_checkAll nested, look, inside]

/-- Checking a list looks at its definitions and at those inside them, wherever the places
start. -/
theorem findings_checkAll (definitions : List TypeDefinition) {place : Nat} :
    (checker.checkAll definitions).findings =
      (entriesFrom place definitions).flatMap fun entry => (checker.look entry.2).findings := by
  match definitions with
  | [] => rfl
  | definition :: rest =>
    rw [checkAll, Report.findings_append, findings_check definition, findings_checkAll rest,
      entriesFrom, List.flatMap_append, List.flatMap_cons, List.flatMap_map]

end

/-- Two lists, one after the other, are checked one after the other. -/
theorem checkAll_append (first second : List TypeDefinition) :
    checker.checkAll (first ++ second) = checker.checkAll first ++ checker.checkAll second := by
  induction first with
  | nil => rfl
  | cons definition rest ih =>
    rw [List.cons_append, checkAll, checkAll, ih, Report.append_assoc]

/-- A finding is made in a list just if it is made about a definition to which some path leads. -/
theorem mem_findings_checkAll {definitions : List TypeDefinition} {finding : Finding} :
    finding ∈ (checker.checkAll definitions).findings ↔
      ∃ path definition, at? definitions path = some definition ∧
        finding ∈ (checker.look definition).findings := by
  have complete := (inDocumentOrder_documentOrder definitions).complete
  rw [findings_checkAll definitions, ← documentOrder, List.mem_flatMap]
  constructor
  · rintro ⟨⟨path, definition⟩, member, found⟩
    exact ⟨path, definition, (complete path definition).mp member, found⟩
  · rintro ⟨path, definition, leads, found⟩
    exact ⟨(path, definition), (complete path definition).mpr leads, found⟩

/-- The findings are those of the checker about each definition in document order.
Hence lists are checked one after the other, and there is an error just if there is
one about some definition at some depth. -/
theorem checkAll_inDocumentOrder (checker : Checker) (definitions : List TypeDefinition) :
    (∀ entries, InDocumentOrder definitions entries ↔ entries = documentOrder definitions) ∧
    (checker.checkAll definitions).findings =
      (documentOrder definitions).flatMap (fun entry => (checker.look entry.2).findings) ∧
    (∀ later, checker.checkAll (definitions ++ later) =
      checker.checkAll definitions ++ checker.checkAll later) ∧
    Report.Splits (checker.checkAll definitions).findings
      (checker.checkAll definitions).warnings (checker.checkAll definitions).errors ∧
    ((checker.checkAll definitions).hasErrors = true ↔
      ∃ path definition, at? definitions path = some definition ∧
        ∃ finding ∈ (checker.look definition).findings, finding.severity = .error) := by
  refine ⟨fun entries => inDocumentOrder_iff, findings_checkAll definitions,
    checkAll_append definitions, Report.splits _, ?_⟩
  rw [Report.hasErrors_iff]
  constructor
  · rintro ⟨finding, member, grave⟩
    obtain ⟨path, definition, leads, found⟩ := mem_findings_checkAll.mp member
    exact ⟨path, definition, leads, finding, found, grave⟩
  · rintro ⟨path, definition, leads, finding, found, grave⟩
    exact ⟨finding, mem_findings_checkAll.mpr ⟨path, definition, leads, found⟩, grave⟩

end Checker

end ConstraintFacets
