import ConstraintFacets.Proofs.Snapshot.Records

/-! # Reading type definitions back

Type definitions, and lists of them, are read back from their JSON texts
(`ConstraintFacets.definition_snapshots_read_back`), as long as no more containers
stand inside each other than a reader goes into. A definition is held back as a whole
before its kind is known, so its text has to be sound
(`ConstraintFacets.TypeDefinition.isSound_toJson`); then the kind is taken from among
the fields at every level (`ConstraintFacets.TypeDefinition.readFrom?_toJson`).
-/

namespace ConstraintFacets

namespace Accessor

/-- An accessor is read back. -/
theorem read?_toJson {accessor : Accessor} {room : Nat}
    (bounded : accessor.toJson.depth ≤ room) : read? room accessor.toJson = some accessor := by
  obtain ⟨inner, rfl, _⟩ := Json.depth_record_le bounded
  rfl

/-- An accessor that may be absent is read back, or is absent again. -/
theorem optional?_optionToJson {value : Option Accessor} {room : Nat}
    (bounded : (optionToJson value).depth ≤ room) :
    Json.optional? (read? room) (optionToJson value) = some value := by
  cases value with
  | none => rfl
  | some accessor => exact Json.optional?_record (read?_toJson bounded)

/-- An accessor may be held back. -/
theorem isSound_toJson {accessor : Accessor} {room : Nat}
    (bounded : accessor.toJson.depth ≤ room) : accessor.toJson.isSound room := by
  obtain ⟨inner, rfl, _⟩ := Json.depth_record_le bounded
  apply Json.isSound_record
  simp [Json.text, Json.isSound]

/-- An accessor that may be absent may be held back. -/
theorem isSound_optionToJson {value : Option Accessor} {room : Nat}
    (bounded : (optionToJson value).depth ≤ room) : (optionToJson value).isSound room := by
  cases value with
  | none => cases room <;> rfl
  | some accessor => exact isSound_toJson bounded

end Accessor

/-- The fields of a simple type, which are always written. -/
def SimpleType.fields (type : SimpleType) : List (String × Option Json) :=
  [("name", some (.text type.name)), ("value", some (Accessor.optionToJson type.value))]

/-- The fields of a complex type, which are always written. -/
def ComplexType.fields (type : ComplexType) : List (String × Option Json) :=
  [("name", some (.text type.name)),
   ("value", some (Accessor.optionToJson type.value)),
   ("attributes", some (.array (type.attributes.map Accessor.toJson))),
   ("elements", some (.array (type.elements.map Accessor.toJson))),
   ("nested_types", some (.array (type.nestedTypes.map TypeDefinition.toJson)))]

theorem TypeDefinition.toJsonList_eq_map (definitions : List TypeDefinition) :
    TypeDefinition.toJsonList definitions = definitions.map TypeDefinition.toJson := by
  induction definitions with
  | nil => rfl
  | cons definition rest ih => rw [TypeDefinition.toJsonList, ih, List.map_cons]

/-- The kind of a definition. -/
def TypeDefinition.kind : TypeDefinition → DefinitionKind
  | .simple _ => .simple
  | .complex _ => .complex

/-- The fields of a definition besides its kind. -/
def TypeDefinition.fields : TypeDefinition → List (String × Option Json)
  | .simple type => type.fields
  | .complex type => type.fields

/-- A definition is written as its kind with its fields behind it. -/
theorem TypeDefinition.toJson_eq (definition : TypeDefinition) :
    definition.toJson =
      .record (("kind", .text definition.kind.name) :: Json.given definition.fields) := by
  cases definition with
  | simple type => rfl
  | complex type =>
      obtain ⟨name, value, attributes, elements, nestedTypes⟩ := type
      rw [TypeDefinition.toJson, TypeDefinition.toJsonList_eq_map]
      rfl

/-- The kind is told apart from the other fields. -/
theorem TypeDefinition.splitKind?_record {members : List (String × Json)} (kind : Json)
    (others : ∀ member ∈ members, member.1 ≠ "kind") :
    TypeDefinition.splitKind? (.record (("kind", kind) :: members)) =
      some (kind, .record members) := by
  have apart : ∀ member ∈ members.map fun member => (some member.1, member.2),
      decide (member.1 = some "kind") = false := by
    intro member listed
    obtain ⟨field, inFields, rfl⟩ := List.mem_map.mp listed
    exact decide_eq_false fun same => others field inFields (Option.some.inj same)
  have kinds : (members.map fun member => (some member.1, member.2)).filter
      (fun member => decide (member.1 = some "kind")) = [] :=
    List.filter_eq_nil_iff.mpr fun member listed => by simp [apart member listed]
  have rest : (members.map fun member => (some member.1, member.2)).filter
      (fun member => !decide (member.1 = some "kind")) =
        members.map fun member => (some member.1, member.2) :=
    List.filter_eq_self.mpr fun member listed => by simp [apart member listed]
  simp [Json.record, TypeDefinition.splitKind?, List.partition_eq_filter_filter, kinds, rest,
    Function.comp_def]

/-- The kind of a written definition is split off, and its fields are left. -/
theorem TypeDefinition.splitKind?_toJson (definition : TypeDefinition) :
    TypeDefinition.splitKind? definition.toJson =
      some (.text definition.kind.name, .record (Json.given definition.fields)) := by
  rw [definition.toJson_eq]
  apply TypeDefinition.splitKind?_record
  intro member listed
  have named := (Json.keys_given_sublist definition.fields).subset
    (List.mem_map.mpr ⟨member, listed, rfl⟩)
  intro same
  rw [same] at named
  cases definition <;> simp [TypeDefinition.fields, SimpleType.fields, ComplexType.fields] at named

/-- A kind is read back from its name, wherever it comes from. -/
theorem DefinitionKind.read?_name (origin : Json.Origin) (kind : DefinitionKind) :
    DefinitionKind.read? origin (.text kind.name) = some kind := by
  cases kind <;> rfl

/-- A simple type is read back from its fields. -/
theorem SimpleType.read?_given {type : SimpleType} {room : Nat}
    (valueFits : (Accessor.optionToJson type.value).depth ≤ room) :
    SimpleType.read? room (.record (Json.given type.fields)) = some type := by
  have distinct : (type.fields.map Prod.fst).Nodup := by simp [SimpleType.fields]
  have fields : (Json.record (Json.given type.fields)).fields? ["name", "value"] =
      some (Json.given type.fields) := Json.fields?_given rfl distinct
  have nameFound : (Json.given type.fields).lookup "name" = some (.text type.name) :=
    Json.lookup_given distinct (.head _)
  have valueRead := Json.fieldOr_given_present none distinct (.tail _ (.head _))
    (Accessor.optional?_optionToJson valueFits)
  rw [SimpleType.read?]
  simp only [fields, nameFound, valueRead, Json.text?_text, Option.bind_eq_bind, Option.bind_some]

/-- A list of accessors is read back. -/
theorem Accessor.listOf?_toJson {accessors : List Accessor} {room : Nat}
    (bounded : (Json.array (accessors.map Accessor.toJson)).depth ≤ room) :
    Json.listOf? Accessor.read? room (.array (accessors.map Accessor.toJson)) = some accessors :=
  Json.listOf?_array bounded fun _ _ _ _ fits => Accessor.read?_toJson fits

/-- A complex type is read back from its fields if its nested types are. -/
theorem ComplexType.read?_given {nested? : Json → Option (List TypeDefinition)}
    {type : ComplexType} {room : Nat}
    (fits : ∀ name json, (name, some json) ∈ type.fields → json.depth ≤ room)
    (nested : nested? (.array (type.nestedTypes.map TypeDefinition.toJson)) =
      some type.nestedTypes) :
    ComplexType.read? nested? room (.record (Json.given type.fields)) = some type := by
  have distinct : (type.fields.map Prod.fst).Nodup := by simp [ComplexType.fields]
  have fields : (Json.record (Json.given type.fields)).fields?
      ["name", "value", "attributes", "elements", "nested_types"] =
        some (Json.given type.fields) := Json.fields?_given rfl distinct
  have nameFound : (Json.given type.fields).lookup "name" = some (.text type.name) :=
    Json.lookup_given distinct (.head _)
  have valueListed : ("value", some (Accessor.optionToJson type.value)) ∈ type.fields :=
    .tail _ (.head _)
  have attributesListed : ("attributes", some (.array (type.attributes.map Accessor.toJson))) ∈
      type.fields := .tail _ (.tail _ (.head _))
  have elementsListed : ("elements", some (.array (type.elements.map Accessor.toJson))) ∈
      type.fields := .tail _ (.tail _ (.tail _ (.head _)))
  have nestedListed : ("nested_types",
      some (.array (type.nestedTypes.map TypeDefinition.toJson))) ∈ type.fields :=
    .tail _ (.tail _ (.tail _ (.tail _ (.head _))))
  have valueRead := Json.fieldOr_given_present none distinct valueListed
    (Accessor.optional?_optionToJson (fits _ _ valueListed))
  have attributesRead := Json.fieldOr_given_present [] distinct attributesListed
    (Accessor.listOf?_toJson (fits _ _ attributesListed))
  have elementsRead := Json.fieldOr_given_present [] distinct elementsListed
    (Accessor.listOf?_toJson (fits _ _ elementsListed))
  have nestedRead := Json.fieldOr_given_present [] distinct nestedListed nested
  rw [ComplexType.read?]
  simp only [fields, nameFound, valueRead, attributesRead, elementsRead, nestedRead,
    Json.text?_text, Option.bind_eq_bind, Option.bind_some]
  cases type
  rfl

/-- Nested types are read as a list of definitions that are held back. -/
theorem TypeDefinition.readNested?_eq_listOf? (room : Nat) (json : Json) :
    TypeDefinition.readNested? room json =
      Json.listOf? (TypeDefinition.readFrom? .heldBack) room json := by
  cases room <;> cases json <;> rfl

/-- The fields of a definition need one level less than the definition. -/
theorem TypeDefinition.depth_fields_le {definition : TypeDefinition} {room : Nat}
    (bounded : definition.toJson.depth ≤ room) :
    ∃ inner, room = inner + 1 ∧
      ∀ name json, (name, some json) ∈ definition.fields → json.depth ≤ inner := by
  rw [definition.toJson_eq] at bounded
  obtain ⟨inner, isNext, fits⟩ := Json.depth_record_le bounded
  refine ⟨inner, isNext, fun name json written => ?_⟩
  exact fits (name, json) (.tail _ (Json.mem_given_iff.mpr written))

/-- A definition is read back with room for its depth, where it stands as well as where
it is held back. -/
theorem TypeDefinition.readFrom?_toJson (origin : Json.Origin) (room : Nat)
    {definition : TypeDefinition} (bounded : definition.toJson.depth ≤ room) :
    TypeDefinition.readFrom? origin room definition.toJson = some definition := by
  obtain ⟨inner, rfl, fits⟩ := TypeDefinition.depth_fields_le bounded
  rw [TypeDefinition.readFrom?, definition.splitKind?_toJson, Option.bind_eq_bind,
    Option.bind_some]
  simp only [DefinitionKind.read?_name, Option.bind_eq_bind, Option.bind_some]
  cases definition with
  | simple type =>
      have back := SimpleType.read?_given (fits "value" _ (.tail _ (.head _)))
      exact congrArg (Option.map TypeDefinition.simple) back
  | complex type =>
      have nestedFit := fits "nested_types" _ (.tail _ (.tail _ (.tail _ (.tail _ (.head _)))))
      have nested : TypeDefinition.readNested? inner
          (.array (type.nestedTypes.map TypeDefinition.toJson)) = some type.nestedTypes := by
        rw [TypeDefinition.readNested?_eq_listOf?]
        apply Json.listOf?_array nestedFit
        intro nested listed deeper below nestedFits
        exact TypeDefinition.readFrom?_toJson .heldBack deeper nestedFits
      have back := ComplexType.read?_given fits nested
      exact congrArg (Option.map TypeDefinition.complex) back
termination_by room

section Sound

variable {room : Nat} {name : String} {json : Json}

/-- Each field of a simple type may be held back. -/
theorem SimpleType.isSound_of_mem_fields {type : SimpleType}
    (listed : (name, some json) ∈ type.fields) (fits : json.depth ≤ room) : json.isSound room := by
  simp only [SimpleType.fields, List.mem_cons, Prod.mk.injEq, Option.some.injEq, List.not_mem_nil,
    or_false] at listed
  rcases listed with ⟨-, rfl⟩ | ⟨-, rfl⟩
  · exact Json.isSound_text type.name room
  · exact Accessor.isSound_optionToJson fits

/-- Each field of a complex type may be held back if its nested types may. -/
theorem ComplexType.isSound_of_mem_fields {type : ComplexType}
    (nested : (Json.array (type.nestedTypes.map TypeDefinition.toJson)).depth ≤ room →
      (Json.array (type.nestedTypes.map TypeDefinition.toJson)).isSound room)
    (listed : (name, some json) ∈ type.fields) (fits : json.depth ≤ room) : json.isSound room := by
  simp only [ComplexType.fields, List.mem_cons, Prod.mk.injEq, Option.some.injEq, List.not_mem_nil,
    or_false] at listed
  rcases listed with ⟨-, rfl⟩ | ⟨-, rfl⟩ | ⟨-, rfl⟩ | ⟨-, rfl⟩ | ⟨-, rfl⟩
  · exact Json.isSound_text type.name room
  · exact Accessor.isSound_optionToJson fits
  · exact Json.isSound_array fits fun _ _ _ _ itemFits => Accessor.isSound_toJson itemFits
  · exact Json.isSound_array fits fun _ _ _ _ itemFits => Accessor.isSound_toJson itemFits
  · exact nested fits

end Sound

/-- What is written for a definition is sound, so that it can be held back. -/
theorem TypeDefinition.isSound_toJson (room : Nat) {definition : TypeDefinition}
    (bounded : definition.toJson.depth ≤ room) : definition.toJson.isSound room := by
  obtain ⟨inner, rfl, fits⟩ := TypeDefinition.depth_fields_le bounded
  rw [definition.toJson_eq]
  apply Json.isSound_record
  rw [List.forall_mem_cons]
  refine ⟨Json.isSound_text _ inner, fun member kept => ?_⟩
  obtain ⟨name, json⟩ := member
  rw [Json.mem_given_iff] at kept
  cases definition with
  | simple type => exact SimpleType.isSound_of_mem_fields kept (fits name json kept)
  | complex type =>
      refine ComplexType.isSound_of_mem_fields (fun nestedFit => ?_) kept (fits name json kept)
      apply Json.isSound_array nestedFit
      intro nested listed deeper below nestedFits
      exact TypeDefinition.isSound_toJson deeper nestedFits
termination_by room

/-- A definition is read back by a reader with room for it. -/
theorem TypeDefinition.read?_toJson {definition : TypeDefinition} {room : Nat}
    (bounded : definition.toJson.depth ≤ room) :
    TypeDefinition.read? room definition.toJson = some definition := by
  rw [TypeDefinition.read?, if_pos (TypeDefinition.isSound_toJson room bounded)]
  exact TypeDefinition.readFrom?_toJson .inPlace room bounded

/-- **Snapshots of type definitions.** A definition, and a list of definitions in one
array, are read back from their compact texts, if these nest no deeper than a reader
goes. -/
theorem definition_snapshots_read_back (definition : TypeDefinition)
    (definitions : List TypeDefinition) :
    (definition.toJson.depth ≤ Json.nestingLimit →
      ReadsBack TypeDefinition.toJson TypeDefinition.ofJson? definition) ∧
    ((Json.array (TypeDefinition.toJsonList definitions)).depth ≤ Json.nestingLimit →
      ReadsBack (fun definitions => .array (TypeDefinition.toJsonList definitions))
        TypeDefinition.listOfJson? definitions) := by
  constructor
  · intro bounded
    exact readsBack_of_read? (TypeDefinition.read?_toJson bounded)
  · intro bounded
    apply readsBack_of_read?
    rw [TypeDefinition.toJsonList_eq_map] at bounded ⊢
    apply Json.listOf?_array bounded
    intro definition listed inner below fits
    exact TypeDefinition.read?_toJson fits

/-- A simple type with a value, which is a list of references. -/
def codesType : TypeDefinition :=
  .simple { name := "Codes", value := some { name := "value", idref := true, xmlList := true } }

/-- A complex type with another one inside it, and that one with a simple type. -/
def orderType : TypeDefinition :=
  .complex
    { name := "Order"
      attributes := [{ name := "id" }]
      nestedTypes := [.complex { name := "Line", nestedTypes := [codesType] }] }

/-- A complex type with another one nested in it is read back, alone and in a list. -/
theorem definition_snapshots_read_back_orderType :
    ReadsBack TypeDefinition.toJson TypeDefinition.ofJson? orderType ∧
    ReadsBack (fun definitions => .array (TypeDefinition.toJsonList definitions))
      TypeDefinition.listOfJson? [orderType, codesType] := by
  obtain ⟨single, list⟩ := definition_snapshots_read_back orderType [orderType, codesType]
  exact ⟨single (by decide), list (by decide)⟩

end ConstraintFacets
