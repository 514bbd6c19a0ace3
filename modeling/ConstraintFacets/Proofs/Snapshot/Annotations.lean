import ConstraintFacets.Proofs.Snapshot.Records

/-! # Reading annotations back

Declarations, annotation types, annotations and values are read back from their
JSON texts (`ConstraintFacets.annotation_snapshots_read_back`), as long as no more
containers stand inside each other than a reader goes into. A table of values may
have its names in any order, but it must not have a name twice
(`ConstraintFacets.AnnotationUse.IsKeyed`). The proof has a step for each of the
forms, which takes the parts of the form as read back, and an induction on the room
that a reader has.
-/

namespace ConstraintFacets

mutual

/-- No table of values inside a value has a name twice. -/
inductive AnnotationValue.IsKeyed : AnnotationValue → Prop
  | bool (value : Bool) : (AnnotationValue.bool value).IsKeyed
  | int (value : Int64) : (AnnotationValue.int value).IsKeyed
  | string (value : String) : (AnnotationValue.string value).IsKeyed
  | classLiteral (name : String) : (AnnotationValue.classLiteral name).IsKeyed
  | enumConstant (name : String) : (AnnotationValue.enumConstant name).IsKeyed
  | array {items : List AnnotationValue} (each : ∀ item ∈ items, item.IsKeyed) :
    (AnnotationValue.array items).IsKeyed
  | nested {use : AnnotationUse} (keyed : use.IsKeyed) : (AnnotationValue.nested use).IsKeyed

/-- No table of values in an annotation has a name twice, neither its own nor one
inside its values or the declaration of its type. -/
inductive AnnotationUse.IsKeyed : AnnotationUse → Prop
  | mk {use : AnnotationUse} (distinct : (Keyed.keys use.values).Nodup)
    (values : ∀ entry ∈ use.values, entry.2.IsKeyed)
    (definition : ∀ type ∈ use.definition, type.IsKeyed) : use.IsKeyed

/-- No table of values on an annotation type has a name twice. -/
inductive AnnotationType.IsKeyed : AnnotationType → Prop
  | mk {type : AnnotationType} (annotations : ∀ use ∈ type.annotations, use.IsKeyed) : type.IsKeyed

end

/-- No table of values on a declaration has a name twice. -/
def Declaration.IsKeyed (declaration : Declaration) : Prop :=
  ∀ use ∈ declaration.annotations, use.IsKeyed

theorem AnnotationValue.toJsonList_eq_map (items : List AnnotationValue) :
    AnnotationValue.toJsonList items = items.map AnnotationValue.toJson := by
  induction items with
  | nil => rfl
  | cons item rest ih => rw [AnnotationValue.toJsonList, ih, List.map_cons]

theorem AnnotationUse.toJsonList_eq_map (uses : List AnnotationUse) :
    AnnotationUse.toJsonList uses = uses.map AnnotationUse.toJson := by
  induction uses with
  | nil => rfl
  | cons use rest ih => rw [AnnotationUse.toJsonList, ih, List.map_cons]

/-- The kind of a value. -/
def AnnotationValue.kind : AnnotationValue → ValueKind
  | .bool _ => .bool
  | .int _ => .int
  | .string _ => .string
  | .classLiteral _ => .classLiteral
  | .enumConstant _ => .enumConstant
  | .array _ => .array
  | .nested _ => .nested

/-- The content of a value. -/
def AnnotationValue.content : AnnotationValue → Json
  | .bool value => .bool value
  | .int value => .ofInt value.toInt
  | .string value => .text value
  | .classLiteral name => .text name
  | .enumConstant name => .text name
  | .array items => .array (items.map AnnotationValue.toJson)
  | .nested use => use.toJson

/-- A value is written as its kind with its content. -/
theorem AnnotationValue.toJson_eq (value : AnnotationValue) :
    value.toJson = value.kind.tagged value.content := by
  cases value with
  | array items => rw [AnnotationValue.toJson, AnnotationValue.toJsonList_eq_map]; rfl
  | _ => rfl

/-- The member for an entry in a table of values. -/
def AnnotationValue.entryToMember (entry : String × AnnotationValue) : Option String × Json :=
  (some entry.1, entry.2.toJson)

/-- A table is written as one member for each of its entries. -/
theorem AnnotationValue.toMembers_eq_map (values : List (String × AnnotationValue)) :
    AnnotationValue.toMembers values = values.map AnnotationValue.entryToMember := by
  induction values with
  | nil => rfl
  | cons entry rest ih =>
      rw [AnnotationValue.toMembers, ih]
      rfl

/-- The fields of an annotation. Without values or the declaration of its type these
fields are left out. -/
def AnnotationUse.fields (use : AnnotationUse) : List (String × Option Json) :=
  [("type", some (.text use.type)),
   ("values", if use.values.isEmpty then none
     else some (.object (use.values.map AnnotationValue.entryToMember))),
   ("definition", use.definition.map AnnotationType.toJson)]

/-- An annotation is written as the record of its fields that are not at their default. -/
theorem AnnotationUse.toJson_eq (use : AnnotationUse) :
    use.toJson = .record (Json.given use.fields) := by
  obtain ⟨type, values, definition⟩ := use
  cases values with
  | nil => cases definition <;> rfl
  | cons entry rest =>
      rw [AnnotationUse.toJson, AnnotationValue.toMembers_eq_map]
      cases definition <;> rfl

/-- The fields of the declaration of an annotation type. -/
def AnnotationType.fields (type : AnnotationType) : List (String × Option Json) :=
  [("qualified_name", some (.text type.qualifiedName)),
   ("annotations", some (.array (type.annotations.map AnnotationUse.toJson)))]

theorem AnnotationType.toJson_eq (type : AnnotationType) :
    type.toJson = .record (Json.given type.fields) := by
  obtain ⟨qualifiedName, annotations⟩ := type
  rw [AnnotationType.toJson, AnnotationUse.toJsonList_eq_map]
  rfl

/-- The fields of a declaration. A package that is not known and an empty list of
block tags are left out. -/
def Declaration.fields (declaration : Declaration) : List (String × Option Json) :=
  [("name", some (.text declaration.name)),
   ("package", declaration.package.map .text),
   ("annotations", some (.array (declaration.annotations.map AnnotationUse.toJson))),
   ("doc_tags", if declaration.docTags.isEmpty then none
     else some (.array (declaration.docTags.map .text)))]

theorem Declaration.toJson_eq (declaration : Declaration) :
    declaration.toJson = .record (Json.given declaration.fields) := by
  obtain ⟨name, package, annotations, docTags⟩ := declaration
  rw [Declaration.toJson, AnnotationUse.toJsonList_eq_map]
  cases package <;> cases docTags <;> rfl

section Step

variable {origin : Json.Origin} {room : Nat}

/-- The kind of a value comes before its content, so the content is not held back. -/
theorem ValueKind.split?_tagged (kind : ValueKind) (content : Json) :
    ValueKind.split? origin room (kind.tagged content) = some (kind, origin, content) := by
  have fields : (kind.tagged content).fields? ["kind", "value"] =
      some [("kind", .text kind.name), ("value", content)] :=
    Json.fields?_record (by simp) (by simp)
  have choice : Json.choice? origin room (.text kind.name) = some kind.name := by
    cases room <;> rfl
  unfold ValueKind.tagged Json.record at fields ⊢
  rw [ValueKind.split?, fields]
  simp [List.lookup_cons, choice, ValueKind.ofName?_name]

/-- A reader with room for a value has room for its content within it. -/
theorem ValueKind.depth_tagged_le {kind : ValueKind} {content : Json}
    (bounded : (kind.tagged content).depth ≤ room) :
    ∃ inner, room = inner + 1 ∧ content.depth ≤ inner := by
  obtain ⟨inner, isNext, fits⟩ := Json.depth_record_le bounded
  exact ⟨inner, isNext, fits ("value", content) (by simp)⟩

/-- The items of an array are read as a list of values. -/
theorem AnnotationValue.readItems?_eq_listOf? (json : Json) :
    AnnotationValue.readItems? origin room json =
      Json.listOf? (AnnotationValue.read? origin) room json := by
  cases room <;> cases json <;> rfl

/-- Annotations are read as a list. -/
theorem AnnotationUse.readItems?_eq_listOf? (json : Json) :
    AnnotationUse.readItems? origin room json =
      Json.listOf? (AnnotationUse.read? origin) room json := by
  cases room <;> cases json <;> rfl

/-- The members of a table are entered one after the other. -/
theorem AnnotationValue.readTable?_entries {entries : List (String × AnnotationValue)}
    (back : ∀ entry ∈ entries,
      AnnotationValue.read? origin room entry.2.toJson = some entry.2) :
    AnnotationValue.readTable? origin (room + 1)
      (.object (entries.map AnnotationValue.entryToMember)) = some (Keyed.ofList entries) := by
  rw [AnnotationValue.readTable?, Json.mapM_map_eq_some, Option.map_some]
  intro entry listed
  simp only [AnnotationValue.entryToMember, back entry listed, Option.bind_eq_bind,
    Option.bind_some]

/-- An annotation is read back if its values and the declaration of its type are. -/
theorem AnnotationUse.read?_of_parts {use : AnnotationUse}
    (values : use.values ≠ [] → AnnotationValue.readTable? origin room
      (.object (use.values.map AnnotationValue.entryToMember)) = some use.values)
    (definition : ∀ type ∈ use.definition,
      AnnotationType.read? origin room type.toJson = some type) :
    AnnotationUse.read? origin (room + 1) use.toJson = some use := by
  have distinct : (use.fields.map Prod.fst).Nodup := by simp [AnnotationUse.fields]
  have fields : (Json.record (Json.given use.fields)).fields? ["type", "values", "definition"] =
      some (Json.given use.fields) := Json.fields?_given rfl distinct
  have typeFound : (Json.given use.fields).lookup "type" = some (.text use.type) :=
    Json.lookup_given distinct (by simp [AnnotationUse.fields])
  have valuesRead : Json.fieldOr (Json.given use.fields) "values" []
      (AnnotationValue.readTable? origin room) = some use.values :=
    Json.fieldOr_given_list distinct (.tail _ (.head _)) values
  have definitionRead : Json.fieldOr (Json.given use.fields) "definition" none
      (Json.optional? (AnnotationType.read? origin room)) = some use.definition := by
    apply Json.fieldOr_given_optional distinct (.tail _ (.tail _ (.head _)))
    intro type known
    have back := definition type known
    rw [type.toJson_eq] at back ⊢
    exact Json.optional?_record back
  rw [use.toJson_eq, AnnotationUse.read?]
  simp only [fields, typeFound, valuesRead, definitionRead, Json.text?_text, Option.bind_eq_bind,
    Option.bind_some]
  cases use
  rfl

/-- An annotation type is read back if its annotations are. -/
theorem AnnotationType.read?_of_parts {type : AnnotationType}
    (annotations : AnnotationUse.readItems? origin room
      (.array (type.annotations.map AnnotationUse.toJson)) = some type.annotations) :
    AnnotationType.read? origin (room + 1) type.toJson = some type := by
  have distinct : (type.fields.map Prod.fst).Nodup := by simp [AnnotationType.fields]
  have fields : (Json.record (Json.given type.fields)).fields? ["qualified_name", "annotations"] =
      some (Json.given type.fields) := Json.fields?_given rfl distinct
  have nameFound : (Json.given type.fields).lookup "qualified_name" =
      some (.text type.qualifiedName) := Json.lookup_given distinct (.head _)
  have annotationsRead : Json.fieldOr (Json.given type.fields) "annotations" []
      (AnnotationUse.readItems? origin room) = some type.annotations := by
    exact Json.fieldOr_given_present [] distinct (.tail _ (.head _)) annotations
  rw [type.toJson_eq, AnnotationType.read?]
  simp only [fields, nameFound, annotationsRead, Json.text?_text, Option.bind_eq_bind,
    Option.bind_some]
  cases type
  rfl

end Step

mutual

/-- A value is read back with room for its depth. -/
theorem AnnotationValue.read?_toJson (origin : Json.Origin) (room : Nat) {value : AnnotationValue}
    (keyed : value.IsKeyed) (bounded : value.toJson.depth ≤ room) :
    AnnotationValue.read? origin room value.toJson = some value := by
  rw [value.toJson_eq] at bounded ⊢
  obtain ⟨inner, rfl, fits⟩ := ValueKind.depth_tagged_le bounded
  rw [AnnotationValue.read?, ValueKind.split?_tagged, Option.bind_eq_bind, Option.bind_some]
  cases keyed with
  | bool value => rfl
  | int value => simp [AnnotationValue.kind, AnnotationValue.content, Integer.toInt64?_toInt]
  | string value => rfl
  | classLiteral name => rfl
  | enumConstant name => rfl
  | @array items each =>
      have back : AnnotationValue.readItems? origin inner
          (.array (items.map AnnotationValue.toJson)) = some items := by
        rw [AnnotationValue.readItems?_eq_listOf?]
        apply Json.listOf?_array fits
        intro item listed deeper below itemFits
        exact AnnotationValue.read?_toJson origin deeper (each item listed) itemFits
      exact congrArg (Option.map AnnotationValue.array) back
  | nested keyed =>
      exact congrArg (Option.map AnnotationValue.nested)
        (AnnotationUse.read?_toJson origin inner keyed fits)
termination_by room

/-- An annotation is read back with room for its depth. -/
theorem AnnotationUse.read?_toJson (origin : Json.Origin) (room : Nat) {use : AnnotationUse}
    (keyed : use.IsKeyed) (bounded : use.toJson.depth ≤ room) :
    AnnotationUse.read? origin room use.toJson = some use := by
  obtain ⟨distinct, values, definition⟩ := keyed
  rw [use.toJson_eq] at bounded
  obtain ⟨inner, rfl, fits⟩ := Json.depth_given_le bounded
  apply AnnotationUse.read?_of_parts
  · intro present
    have written : ("values", some (.object (use.values.map AnnotationValue.entryToMember))) ∈
        use.fields := by simp [AnnotationUse.fields, present]
    obtain ⟨deeper, rfl, entriesFit⟩ := Json.depth_object_le (fits _ _ written)
    rw [AnnotationValue.readTable?_entries, Keyed.ofList_of_nodup distinct]
    intro entry listed
    apply AnnotationValue.read?_toJson origin deeper (values entry listed)
    exact entriesFit _ (List.mem_map.mpr ⟨entry, listed, rfl⟩)
  · intro type known
    apply AnnotationType.read?_toJson origin inner (definition type known)
    exact fits "definition" type.toJson (by simp [AnnotationUse.fields, Option.mem_def.mp known])
termination_by room

/-- The declaration of an annotation type is read back with room for its depth. -/
theorem AnnotationType.read?_toJson (origin : Json.Origin) (room : Nat) {type : AnnotationType}
    (keyed : type.IsKeyed) (bounded : type.toJson.depth ≤ room) :
    AnnotationType.read? origin room type.toJson = some type := by
  obtain ⟨annotations⟩ := keyed
  rw [type.toJson_eq] at bounded
  obtain ⟨inner, rfl, fits⟩ := Json.depth_given_le bounded
  apply AnnotationType.read?_of_parts
  rw [AnnotationUse.readItems?_eq_listOf?]
  apply Json.listOf?_array (fits "annotations" _ (.tail _ (.head _)))
  intro use listed deeper below useFits
  exact AnnotationUse.read?_toJson origin deeper (annotations use listed) useFits
termination_by room

end

/-- A declaration is read back with room for its depth. -/
theorem Declaration.read?_toJson (room : Nat) {declaration : Declaration}
    (keyed : declaration.IsKeyed) (bounded : declaration.toJson.depth ≤ room) :
    Declaration.read? room declaration.toJson = some declaration := by
  rw [declaration.toJson_eq] at bounded ⊢
  obtain ⟨inner, rfl, fits⟩ := Json.depth_given_le bounded
  have distinct : (declaration.fields.map Prod.fst).Nodup := by simp [Declaration.fields]
  have fields : (Json.record (Json.given declaration.fields)).fields?
      ["name", "package", "annotations", "doc_tags"] = some (Json.given declaration.fields) :=
    Json.fields?_given rfl distinct
  have nameFound : (Json.given declaration.fields).lookup "name" = some (.text declaration.name) :=
    Json.lookup_given distinct (.head _)
  have packageRead : Json.fieldOr (Json.given declaration.fields) "package" none
      (Json.optional? Json.text?) = some declaration.package := by
    apply Json.fieldOr_given_optional distinct (.tail _ (.head _))
    intro package known
    rfl
  have annotationsRead : Json.fieldOr (Json.given declaration.fields) "annotations" []
      (Json.listOf? (AnnotationUse.read? .inPlace) inner) = some declaration.annotations := by
    apply Json.fieldOr_given_present [] distinct (.tail _ (.tail _ (.head _)))
    apply Json.listOf?_array (fits "annotations" _ (.tail _ (.tail _ (.head _))))
    intro use listed deeper below useFits
    exact AnnotationUse.read?_toJson .inPlace deeper (keyed use listed) useFits
  have docTagsRead : Json.fieldOr (Json.given declaration.fields) "doc_tags" []
      (Json.listOf? (fun _ => Json.text?) inner) = some declaration.docTags := by
    apply Json.fieldOr_given_list distinct (.tail _ (.tail _ (.tail _ (.head _))))
    intro present
    have written : ("doc_tags", some (.array (declaration.docTags.map .text))) ∈
        declaration.fields := by simp [Declaration.fields, present]
    apply Json.listOf?_array (fits _ _ written)
    intro tag listed deeper below tagFits
    rfl
  rw [Declaration.read?]
  simp only [fields, nameFound, packageRead, annotationsRead, docTagsRead, Json.text?_text,
    Option.bind_eq_bind, Option.bind_some]

/-- **Snapshots of annotations.** Declarations, annotation types, annotations and
values that have no table with a repeated name, and whose texts nest no deeper than a
reader goes, are read back from their compact texts: every value, the order of every
table and everything that was left out. What is read is written as the same text. -/
theorem annotation_snapshots_read_back (declaration : Declaration) (type : AnnotationType)
    (use : AnnotationUse) (value : AnnotationValue) :
    (declaration.IsKeyed → declaration.toJson.depth ≤ Json.nestingLimit →
      ReadsBack Declaration.toJson Declaration.ofJson? declaration) ∧
    (type.IsKeyed → type.toJson.depth ≤ Json.nestingLimit →
      ReadsBack AnnotationType.toJson AnnotationType.ofJson? type) ∧
    (use.IsKeyed → use.toJson.depth ≤ Json.nestingLimit →
      ReadsBack AnnotationUse.toJson AnnotationUse.ofJson? use) ∧
    (value.IsKeyed → value.toJson.depth ≤ Json.nestingLimit →
      ReadsBack AnnotationValue.toJson AnnotationValue.ofJson? value) := by
  refine ⟨fun keyed bounded => ?_, fun keyed bounded => ?_, fun keyed bounded => ?_,
    fun keyed bounded => ?_⟩
  · exact readsBack_of_read? (Declaration.read?_toJson _ keyed bounded)
  · exact readsBack_of_read? (AnnotationType.read?_toJson .inPlace _ keyed bounded)
  · exact readsBack_of_read? (AnnotationUse.read?_toJson .inPlace _ keyed bounded)
  · exact readsBack_of_read? (AnnotationValue.read?_toJson .inPlace _ keyed bounded)

/-- An annotation type with an annotation of its own. -/
def sizeType : AnnotationType where
  qualifiedName := "javax.validation.constraints.Size"
  annotations := [{ type := "javax.validation.Constraint", values := [("validatedBy", .array [])] }]

/-- An annotation whose attributes do not stand in the order of their names. -/
def sizeUse : AnnotationUse where
  type := "javax.validation.constraints.Size"
  values := [("min", .int 1), ("groups", .array [.classLiteral "com.example.Draft"])]
  definition := some sizeType

/-- A declaration with an annotation, in no package and with a block tag. -/
def sizedName : Declaration where
  name := "name"
  annotations := [sizeUse]
  docTags := ["since \"1.0\""]

/-- The tables in the declaration of that type have distinct names. -/
theorem isKeyed_sizeType : sizeType.IsKeyed := by
  refine .mk fun use listed => ?_
  rw [List.mem_singleton.mp listed]
  refine .mk (by simp [Keyed.keys]) (fun entry inside => ?_) (by simp)
  rw [List.mem_singleton.mp inside]
  exact .array (by simp)

/-- The table of that annotation has distinct names. -/
theorem isKeyed_sizeUse : sizeUse.IsKeyed := by
  refine .mk (by simp [Keyed.keys, sizeUse]) (fun entry inside => ?_) (fun type known => ?_)
  · rcases List.mem_cons.mp inside with rfl | later
    · exact .int 1
    · rw [List.mem_singleton.mp later]
      refine .array fun item listed => ?_
      rw [List.mem_singleton.mp listed]
      exact .classLiteral _
  · cases known
    exact isKeyed_sizeType

/-- A declaration, its annotation, the type of it and a value in which it is nested are read
back. -/
theorem annotation_snapshots_read_back_sizedName :
    ReadsBack Declaration.toJson Declaration.ofJson? sizedName ∧
    ReadsBack AnnotationType.toJson AnnotationType.ofJson? sizeType ∧
    ReadsBack AnnotationUse.toJson AnnotationUse.ofJson? sizeUse ∧
    ReadsBack AnnotationValue.toJson AnnotationValue.ofJson? (.nested sizeUse) := by
  obtain ⟨declarations, types, uses, values⟩ :=
    annotation_snapshots_read_back sizedName sizeType sizeUse (.nested sizeUse)
  refine ⟨declarations (fun use listed => ?_) (by decide), types isKeyed_sizeType (by decide),
    uses isKeyed_sizeUse (by decide), values (.nested isKeyed_sizeUse) (by decide)⟩
  rw [List.mem_singleton.mp listed]
  exact isKeyed_sizeUse

end ConstraintFacets
