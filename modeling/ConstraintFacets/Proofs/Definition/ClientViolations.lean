import ConstraintFacets.CommandLine.Run
import ConstraintFacets.Proofs.Definition.DocumentOrder
import ConstraintFacets.Proofs.Snapshot.Records

/-! # What the Objective-C client cannot represent in a list of definitions

The client has four rules for accessors. A rule is about the accessors at certain
places of a definition (`ConstraintFacets.ClientRule.governs`), and an accessor there
breaks it or does not (`ConstraintFacets.ClientRule.isBrokenBy`). A list of definitions
has a violation wherever, at any depth, an accessor breaks a rule about its place. The
checker finds each violation once and finds nothing else, and a run fails if and only
if one of them is an error (`ConstraintFacets.clientChecker_findings_correspond`).
-/

namespace ConstraintFacets

/-- Where an accessor stands in a definition. -/
inductive AccessorPlace where
  | attributes (index : Nat)
  | value
  | elements (index : Nat)

namespace AccessorPlace

variable {make : Nat → AccessorPlace} {accessors : List Accessor}

/-- Accessors with the places that are made from their positions. -/
def numbered (make : Nat → AccessorPlace) (accessors : List Accessor) :
    List (AccessorPlace × Accessor) :=
  accessors.zipIdx.map fun entry => (make entry.2, entry.1)

/-- Numbered accessors stand at the place of their index. -/
theorem mem_numbered_iff {place : AccessorPlace} {accessor : Accessor} :
    (place, accessor) ∈ numbered make accessors ↔
      ∃ index, place = make index ∧ accessors[index]? = some accessor := by
  rw [numbered, List.mem_map]
  constructor
  · rintro ⟨⟨found, index⟩, member, same⟩
    cases same
    exact ⟨index, rfl, List.mem_zipIdx_iff_getElem?.mp member⟩
  · rintro ⟨index, rfl, found⟩
    exact ⟨(accessor, index), List.mem_zipIdx_iff_getElem?.mpr found, rfl⟩

/-- No place comes twice among numbered accessors, if different indices make different places. -/
theorem pairwise_numbered (distinct : ∀ first second, make first = make second → first = second) :
    (numbered make accessors).Pairwise fun first second => first.1 ≠ second.1 := by
  have positions : accessors.zipIdx.Pairwise fun first second => first.2 ≠ second.2 := by
    rw [← List.pairwise_map (f := Prod.snd), List.zipIdx_map_snd]
    exact List.nodup_range'
  refine List.pairwise_map.mpr (positions.imp fun apart same => apart ?_)
  exact distinct _ _ same

/-- A search that does not depend on the index finds the same among the accessors without
numbers. -/
theorem flatMap_numbered {α : Type} {find : AccessorPlace × Accessor → List α}
    {look : Accessor → List α}
    (same : ∀ index accessor, find (make index, accessor) = look accessor) :
    (numbered make accessors).flatMap find = accessors.flatMap look := by
  rw [numbered, List.flatMap_map]
  simp only [same]
  rw [← List.flatMap_map Prod.fst look, List.zipIdx_map_fst]

end AccessorPlace

namespace TypeDefinition

open AccessorPlace

/-- The accessor at a place of a definition, if there is one. -/
def accessor? : TypeDefinition → AccessorPlace → Option Accessor
  | .simple type, .value => type.value
  | .simple _, _ => none
  | .complex type, .attributes index => type.attributes[index]?
  | .complex type, .value => type.value
  | .complex type, .elements index => type.elements[index]?

/-- The accessors of a definition with their places. -/
def accessors : TypeDefinition → List (AccessorPlace × Accessor)
  | .simple type => type.value.toList.map (Prod.mk .value)
  | .complex type =>
    numbered .attributes type.attributes ++
      (type.value.toList.map (Prod.mk .value) ++ numbered .elements type.elements)

variable {definition : TypeDefinition} {place : AccessorPlace} {accessor : Accessor}

/-- The accessors of a definition are those that are found at a place in it. -/
theorem mem_accessors_iff :
    (place, accessor) ∈ definition.accessors ↔ definition.accessor? place = some accessor := by
  cases definition with
  | simple type => cases place <;> simp [accessors, accessor?, eq_comm]
  | complex type => cases place <;> simp [accessors, accessor?, mem_numbered_iff, eq_comm]

theorem mem_value_iff {value : Option Accessor} :
    (place, accessor) ∈ value.toList.map (Prod.mk AccessorPlace.value) ↔
      place = .value ∧ value = some accessor := by
  cases value <;> simp [eq_comm]

/-- No two accessors of a definition stand at one place. -/
theorem pairwise_accessors (definition : TypeDefinition) :
    definition.accessors.Pairwise fun first second => first.1 ≠ second.1 := by
  have single (value : Option Accessor) :
      (value.toList.map (Prod.mk AccessorPlace.value)).Pairwise fun first second =>
        first.1 ≠ second.1 := by
    cases value <;> simp
  cases definition with
  | simple type => exact single type.value
  | complex type =>
    refine List.pairwise_append.mpr ⟨pairwise_numbered (by simp), ?_, ?_⟩
    · refine List.pairwise_append.mpr ⟨single type.value, pairwise_numbered (by simp), ?_⟩
      rintro ⟨_, _⟩ isValue ⟨_, _⟩ isElement
      obtain ⟨rfl, -⟩ := mem_value_iff.mp isValue
      obtain ⟨_, rfl, -⟩ := mem_numbered_iff.mp isElement
      exact nofun
    · rintro ⟨_, _⟩ isAttribute ⟨_, _⟩ isOther
      obtain ⟨_, rfl, -⟩ := mem_numbered_iff.mp isAttribute
      rcases List.mem_append.mp isOther with isValue | isElement
      · obtain ⟨rfl, -⟩ := mem_value_iff.mp isValue
        exact nofun
      · obtain ⟨_, rfl, -⟩ := mem_numbered_iff.mp isElement
        exact nofun

end TypeDefinition

/-- What the client asks of accessors. -/
inductive ClientRule where
  /-- Referenced objects are written whole. -/
  | idref
  /-- Items are not joined to a text. -/
  | joinedList
  /-- Binary data does not come in collections. -/
  | binaryCollection
  /-- Maps have an adapter. -/
  | plainMap
deriving DecidableEq

namespace ClientRule

/-- The rules, in the order in which they are looked at. -/
def all : List ClientRule := [idref, joinedList, binaryCollection, plainMap]

/-- Whether a rule is about the accessors at a place of a definition. Of a simple
type only references are of interest. -/
def governs : ClientRule → TypeDefinition → AccessorPlace → Bool
  | idref, _, _ => true
  | joinedList, .complex _, _ => true
  | binaryCollection, .complex _, .attributes _ => true
  | binaryCollection, .complex _, .value => true
  | plainMap, .complex _, .elements _ => true
  | _, _, _ => false

/-- Whether an accessor breaks a rule. -/
def isBrokenBy : ClientRule → Accessor → Bool
  | idref, accessor => accessor.idref
  | joinedList, accessor => accessor.xmlList
  | binaryCollection, accessor => accessor.collection && accessor.binaryData
  | plainMap, accessor => accessor.mapType && !accessor.adapted

/-- How grave it is to break a rule. -/
def severity : ClientRule → Severity
  | idref | joinedList => .warning
  | binaryCollection | plainMap => .error

/-- What is said about a broken rule. -/
def message : ClientRule → String
  | idref => idrefWarning
  | joinedList => listWarning
  | binaryCollection => binaryCollectionError
  | plainMap => mapError

theorem mem_all (rule : ClientRule) : rule ∈ all := by
  cases rule <;> decide

/-- The rules that an accessor breaks at a place of a definition. -/
def brokenAt (definition : TypeDefinition) (place : AccessorPlace) (accessor : Accessor) :
    List ClientRule :=
  all.filter fun rule => rule.governs definition place && rule.isBrokenBy accessor

/-- The finding about a rule that an accessor of a type breaks. -/
def finding (owner : String) (accessor : Accessor) (rule : ClientRule) : Finding :=
  ⟨rule.severity, owner ++ "." ++ accessor.name, rule.message⟩

end ClientRule

open AccessorPlace ClientRule

namespace Accessor

variable {type : ComplexType} (accessor : Accessor)

/-- An attribute is checked as a value is; the findings are those for the rules broken there. -/
theorem findings_checkAttribute :
    (accessor.checkAttribute type.name).findings =
      (brokenAt (.complex type) .value accessor).map (finding type.name accessor) := by
  simp only [brokenAt, all, List.filter_cons, List.filter_nil, governs, isBrokenBy,
    Bool.true_and, Bool.false_and, checkAttribute, checkIdref, checkList]
  cases accessor.idref <;> cases accessor.xmlList <;>
    cases accessor.collection && accessor.binaryData <;> rfl

/-- The findings about an element are those for the rules that it breaks, wherever it stands. -/
theorem findings_checkElement (index : Nat) :
    (accessor.checkElement type.name).findings =
      (brokenAt (.complex type) (.elements index) accessor).map (finding type.name accessor) := by
  simp only [brokenAt, all, List.filter_cons, List.filter_nil, governs, isBrokenBy,
    Bool.true_and, Bool.false_and, checkElement, checkIdref, checkList]
  cases accessor.idref <;> cases accessor.xmlList <;>
    cases accessor.mapType && !accessor.adapted <;> rfl

/-- The findings about the value of a simple type are those for the rules that it breaks. -/
theorem findings_checkIdref {type : SimpleType} :
    (accessor.checkIdref type.name).findings =
      (brokenAt (.simple type) .value accessor).map (finding type.name accessor) := by
  simp only [brokenAt, all, List.filter_cons, List.filter_nil, governs, isBrokenBy,
    Bool.true_and, Bool.false_and, checkIdref]
  cases accessor.idref <;> rfl

end Accessor

/-- The checker finds in a definition, accessor by accessor, the rules that are broken there. -/
theorem findings_look_clientChecker (definition : TypeDefinition) :
    (clientChecker.look definition).findings = definition.accessors.flatMap fun entry =>
      (brokenAt definition entry.1 entry.2).map (finding definition.name entry.2) := by
  cases definition with
  | simple type =>
    change (type.value.toList.map _).flatMap _ = _
    simp only [TypeDefinition.accessors, List.flatMap_map, Accessor.findings_checkIdref,
      TypeDefinition.name]
  | complex type =>
    -- The rules for attributes are those for values.
    have attributes : (numbered .attributes type.attributes).flatMap (fun entry =>
        (brokenAt (.complex type) entry.1 entry.2).map (finding type.name entry.2)) =
          type.attributes.flatMap fun accessor => (accessor.checkAttribute type.name).findings :=
      flatMap_numbered fun _ accessor => accessor.findings_checkAttribute.symm
    have elements : (numbered .elements type.elements).flatMap (fun entry =>
        (brokenAt (.complex type) entry.1 entry.2).map (finding type.name entry.2)) =
          type.elements.flatMap fun element => (element.checkElement type.name).findings :=
      flatMap_numbered fun index element => (element.findings_checkElement index).symm
    change ((type.attributes ++ type.value.toList).map _).flatMap _ ++
      (type.elements.map _).flatMap _ = _
    rw [TypeDefinition.accessors, List.flatMap_append, List.flatMap_append, TypeDefinition.name,
      attributes, elements]
    simp only [List.flatMap_map, List.flatMap_append, List.append_assoc,
      Accessor.findings_checkAttribute]

/-- An accessor at its place in a definition, to which a path leads, and a rule. -/
structure Violation where
  path : List Nat
  definition : TypeDefinition
  place : AccessorPlace
  accessor : Accessor
  rule : ClientRule

namespace Violation

/-- The path, the place and the rule are those of an accessor in a list of definitions
that breaks a rule about its place. -/
structure OccursIn (violation : Violation) (definitions : List TypeDefinition) : Prop where
  leads : TypeDefinition.at? definitions violation.path = some violation.definition
  stands : violation.definition.accessor? violation.place = some violation.accessor
  governed : violation.rule.governs violation.definition violation.place = true
  broken : violation.rule.isBrokenBy violation.accessor = true

/-- What is reported: the subject is the name of the definition, a dot and the name of
the accessor. -/
def finding (violation : Violation) : Finding :=
  ⟨violation.rule.severity, violation.definition.name ++ "." ++ violation.accessor.name,
    violation.rule.message⟩

end Violation

/-- The violations in a list of definitions, in document order. -/
def clientViolations (definitions : List TypeDefinition) : List Violation :=
  (TypeDefinition.documentOrder definitions).flatMap fun entry =>
    entry.2.accessors.flatMap fun part =>
      (brokenAt entry.2 part.1 part.2).map (Violation.mk entry.1 entry.2 part.1 part.2)

variable {definitions : List TypeDefinition}

/-- The violations that are listed are those that occur at a path and a place. -/
theorem mem_clientViolations_iff {violation : Violation} :
    violation ∈ clientViolations definitions ↔ violation.OccursIn definitions := by
  have complete := (TypeDefinition.inDocumentOrder_documentOrder definitions).complete
  simp only [clientViolations, List.mem_flatMap, List.mem_map, brokenAt, List.mem_filter,
    Bool.and_eq_true]
  constructor
  · rintro ⟨⟨path, definition⟩, leads, ⟨place, accessor⟩, stands, rule, ⟨-, governed, broken⟩, rfl⟩
    exact ⟨(complete path definition).mp leads, TypeDefinition.mem_accessors_iff.mp stands,
      governed, broken⟩
  · obtain ⟨path, definition, place, accessor, rule⟩ := violation
    rintro ⟨leads, stands, governed, broken⟩
    exact ⟨(path, definition), (complete path definition).mpr leads, (place, accessor),
      TypeDefinition.mem_accessors_iff.mpr stands, rule, ⟨rule.mem_all, governed, broken⟩, rfl⟩

/-- A violation is listed once: it has its own path, place or rule. -/
theorem nodup_clientViolations (definitions : List TypeDefinition) :
    (clientViolations definitions).Nodup := by
  have rules (path : List Nat) (definition : TypeDefinition) (place : AccessorPlace)
      (accessor : Accessor) : ((brokenAt definition place accessor).map
        (Violation.mk path definition place accessor)).Nodup := by
    have distinct : (brokenAt definition place accessor).Nodup :=
      List.Pairwise.filter _ (by decide : all.Nodup)
    refine List.pairwise_map.mpr (distinct.imp fun apart same => apart ?_)
    exact congrArg Violation.rule same
  rw [clientViolations]
  refine List.pairwise_flatMap.mpr ⟨fun ⟨path, definition⟩ _ => ?_, ?_⟩
  · refine List.pairwise_flatMap.mpr ⟨fun ⟨place, accessor⟩ _ => rules path _ place accessor, ?_⟩
    refine definition.pairwise_accessors.imp ?_
    intro _ _ apart first isFirst second isSecond same
    apply apart
    obtain ⟨_, -, rfl⟩ := List.mem_map.mp isFirst
    obtain ⟨_, -, rfl⟩ := List.mem_map.mp isSecond
    exact congrArg Violation.place same
  · refine (TypeDefinition.inDocumentOrder_documentOrder definitions).increasing.imp ?_
    intro earlier later smaller first isFirst second isSecond same
    obtain ⟨_, -, member⟩ := List.mem_flatMap.mp isFirst
    obtain ⟨_, -, rfl⟩ := List.mem_map.mp member
    obtain ⟨_, -, member⟩ := List.mem_flatMap.mp isSecond
    obtain ⟨_, -, rfl⟩ := List.mem_map.mp member
    have samePath : earlier.1 = later.1 := congrArg Violation.path same
    exact List.lt_irrefl later.1 (samePath ▸ smaller)

/-- The findings of the checker are the texts of the violations, in the same order. -/
theorem findings_checkAll_clientChecker (definitions : List TypeDefinition) :
    (clientChecker.checkAll definitions).findings =
      (clientViolations definitions).map Violation.finding := by
  rw [Checker.findings_checkAll definitions, ← TypeDefinition.documentOrder, clientViolations,
    List.map_flatMap]
  simp only [findings_look_clientChecker, List.map_flatMap, List.map_map]
  rfl

/-- Of the violations those of binary collections and of maps are errors, the others warnings. -/
theorem hasErrors_checkAll_clientChecker :
    (clientChecker.checkAll definitions).hasErrors = true ↔
      ∃ violation : Violation, violation.OccursIn definitions ∧
        (violation.rule = .binaryCollection ∨ violation.rule = .plainMap) := by
  have grave (rule : ClientRule) :
      rule.severity = .error ↔ rule = .binaryCollection ∨ rule = .plainMap := by
    cases rule <;> decide
  rw [Report.hasErrors_iff, findings_checkAll_clientChecker]
  simp only [List.mem_map, mem_clientViolations_iff]
  constructor
  · rintro ⟨_, ⟨violation, occurs, rfl⟩, isError⟩
    exact ⟨violation, occurs, (grave _).mp isError⟩
  · rintro ⟨violation, occurs, isGrave⟩
    exact ⟨_, ⟨violation, occurs, rfl⟩, (grave _).mpr isGrave⟩

/-- A run on readable definitions ends with code 1 just if there is an error among the findings. -/
theorem code_runObjc {files : Files} {path : String}
    (loaded : files.loadDefinitions path = .ok definitions) :
    (runObjc files path).code =
      if (clientChecker.checkAll definitions).hasErrors then 1 else 0 := by
  rw [runObjc, loaded]

/-- Arguments that ask for the client's check lead to that run, if the settings can be read. -/
theorem ofArguments_objc {files : Files} {arguments : List String} {invocation : Invocation}
    {path : String} {settings : Settings}
    (parsed : Parsed.ofArguments arguments = .run invocation)
    (requested : invocation.request = .objc path)
    (configured : files.loadSettings invocation.config = .ok settings) :
    Outcome.ofArguments files arguments = runObjc files path := by
  rw [Outcome.ofArguments, parsed, Outcome.ofParsed, Invocation.run, configured, requested]

/-- The violations in a list of definitions are listed without repetition, and the
findings of the checker are theirs, one for each. Hence a run that can read its
settings and its definitions fails just if a collection of binary data as an
attribute or value, or a map without an adapter as an element, is somewhere among the
definitions. -/
theorem clientChecker_findings_correspond (definitions : List TypeDefinition) :
    (clientViolations definitions).Nodup ∧
    (∀ violation : Violation, violation ∈ clientViolations definitions ↔
      violation.OccursIn definitions) ∧
    (clientChecker.checkAll definitions).findings =
      (clientViolations definitions).map Violation.finding ∧
    ∀ files arguments invocation path settings,
      Parsed.ofArguments arguments = .run invocation → invocation.request = .objc path →
      files.loadSettings invocation.config = .ok settings →
      files.loadDefinitions path = .ok definitions →
      (((Outcome.ofArguments files arguments).code = 1 ↔
        ∃ violation : Violation, violation.OccursIn definitions ∧
          (violation.rule = .binaryCollection ∨ violation.rule = .plainMap)) ∧
      ((Outcome.ofArguments files arguments).code = 0 ↔
        ¬ ∃ violation : Violation, violation.OccursIn definitions ∧
          (violation.rule = .binaryCollection ∨ violation.rule = .plainMap))) := by
  refine ⟨nodup_clientViolations definitions, fun _ => mem_clientViolations_iff,
    findings_checkAll_clientChecker definitions, ?_⟩
  intro files arguments invocation path settings parsed requested configured loaded
  rw [ofArguments_objc parsed requested configured, code_runObjc loaded,
    ← hasErrors_checkAll_clientChecker]
  cases (clientChecker.checkAll definitions).hasErrors <;> decide

/-- A type with a map, inside another type. -/
def registryDefinitions : List TypeDefinition :=
  [.complex
    { name := "Outer"
      nestedTypes := [.complex
        { name := "Registry", elements := [{ name := "entries", mapType := true }] }] }]

/-- The definitions of a registry, as they stand in a file. -/
def registryJson : Json :=
  .array (registryDefinitions.map TypeDefinition.toJson)

/-- The file of the registry, and no others. -/
def registryFiles : Files := fun path =>
  if path = "types.json" then .ok registryJson.compact else .error .notFound

/-- A registry with a map among its entries: the map is found, and the run fails. -/
theorem clientChecker_findings_correspond_registry :
    Parsed.ofArguments ["objc", "types.json"] = .run ⟨none, .objc "types.json"⟩ ∧
    registryFiles.loadSettings none = .ok {} ∧
    registryFiles.loadDefinitions "types.json" = .ok registryDefinitions ∧
    (clientChecker.checkAll registryDefinitions).findings =
      [⟨.error, "Registry.entries", mapError⟩] ∧
    (Outcome.ofArguments registryFiles ["objc", "types.json"]).code = 1 := by
  obtain ⟨-, -, findings, run⟩ := clientChecker_findings_correspond registryDefinitions
  have parsed : Parsed.ofArguments ["objc", "types.json"] = .run ⟨none, .objc "types.json"⟩ := by
    decide
  have configured : registryFiles.loadSettings none = .ok {} := rfl
  have loaded : registryFiles.loadDefinitions "types.json" = .ok registryDefinitions :=
    Files.load_compact rfl rfl
  obtain ⟨fails, -⟩ := run _ _ _ _ _ parsed rfl configured loaded
  refine ⟨parsed, configured, loaded, findings, fails.mpr ?_⟩
  exact ⟨⟨[0, 0], _, .elements 0, _, .plainMap⟩, ⟨rfl, rfl, rfl, rfl⟩, .inr rfl⟩

end ConstraintFacets
