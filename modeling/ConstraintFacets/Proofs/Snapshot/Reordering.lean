import ConstraintFacets.Proofs.Snapshot.Annotations
import ConstraintFacets.Proofs.Snapshot.Definitions
import ConstraintFacets.Proofs.Snapshot.DocumentParts
import Mathlib.Data.List.Nodup

/-! # Reading reordered documents

Readers find members by their names, so one may expect that a reordered document is read as
the document is. For type definitions that is so, and records with a repeated field are not
read in any order (`ConstraintFacets.Json.RejectsRepeated`). Values of attributes are
different, because content that comes before its kind is held back and read by other rules
(`ConstraintFacets.reading_depends_on_member_order`). Where a document makes no use of these
rules, reading does not depend on the order of members
(`ConstraintFacets.reading_ignores_member_order`): both documents are read or neither is,
and what is read is the same but for the order of attributes
(`ConstraintFacets.Declaration.Alike`). The proof follows the readers, and reads each part
and its counterpart from different origins, since either of them may be held back.
-/

namespace ConstraintFacets

mutual

/-- Two values are the same but for the order of attributes of annotations inside them. -/
inductive AnnotationValue.Alike : AnnotationValue → AnnotationValue → Prop
  | bool (value : Bool) : AnnotationValue.Alike (.bool value) (.bool value)
  | int (value : Int64) : AnnotationValue.Alike (.int value) (.int value)
  | string (value : String) : AnnotationValue.Alike (.string value) (.string value)
  | classLiteral (name : String) : AnnotationValue.Alike (.classLiteral name) (.classLiteral name)
  | enumConstant (name : String) : AnnotationValue.Alike (.enumConstant name) (.enumConstant name)
  | array {items others : List AnnotationValue}
    (each : List.Forall₂ AnnotationValue.Alike items others) :
    AnnotationValue.Alike (.array items) (.array others)
  | nested {use other : AnnotationUse} (alike : AnnotationUse.Alike use other) :
    AnnotationValue.Alike (.nested use) (.nested other)

/-- Two annotations have the same type, the same attributes with the same values, in
whatever order, and the same declaration of their type. -/
inductive AnnotationUse.Alike : AnnotationUse → AnnotationUse → Prop
  | mk {use other : AnnotationUse} (type : use.type = other.type)
    (values : ∀ name, Option.Rel AnnotationValue.Alike (use.value? name) (other.value? name))
    (definition : Option.Rel AnnotationType.Alike use.definition other.definition) :
    AnnotationUse.Alike use other

/-- Two annotation types have the same name and the same annotations. -/
inductive AnnotationType.Alike : AnnotationType → AnnotationType → Prop
  | mk {type other : AnnotationType} (qualifiedName : type.qualifiedName = other.qualifiedName)
    (annotations : List.Forall₂ AnnotationUse.Alike type.annotations other.annotations) :
    AnnotationType.Alike type other

end

/-- Two declarations are the same but for the order of attributes of their annotations. -/
structure Declaration.Alike (declaration other : Declaration) : Prop where
  name : declaration.name = other.name
  package : declaration.package = other.package
  annotations : List.Forall₂ AnnotationUse.Alike declaration.annotations other.annotations
  docTags : declaration.docTags = other.docTags

/-- Two tables have the same names with the same values, in whatever order. -/
def AlikeTables (table other : Keyed AnnotationValue) : Prop :=
  ∀ name, Option.Rel AnnotationValue.Alike (Keyed.get? table name) (Keyed.get? other name)

namespace Json.Paired

variable {form : Form} {json first second : Json} {origin other : Origin} {room : Nat}

/-- The entries that are read have the names of the members. -/
theorem keys_of_mapM {α : Type} {read? : Json → Option α} {members : List (Option String × Json)}
    {entries : List (String × α)}
    (read : (members.mapM fun (member : Option String × Json) => do
      let name ← member.1
      let value ← read? member.2
      some (name, value)) = some entries) :
    (Keyed.keys entries).map some = members.map Prod.fst := by
  induction members generalizing entries with
  | nil => cases read; rfl
  | cons member rest ih =>
      obtain ⟨name, value⟩ := member
      simp only [List.mapM_cons, Option.bind_eq_bind, Option.bind_eq_some_iff] at read
      obtain ⟨entry, ⟨_, rfl, _, -, isEntry⟩, others, readOthers, both⟩ := read
      cases isEntry
      cases both
      exact congrArg (some _ :: ·) (ih readOthers)

/-- A table is read alike if its values are, since its names are distinct. -/
theorem rel_readTable? (distinct : json.HasDistinctNames form)
    (paired : Paired form json .table origin other (room + 1) first second)
    (each : ∀ part counterpart, Paired form json .value origin other room part counterpart →
      Option.Rel AnnotationValue.Alike (AnnotationValue.read? origin room part)
        (AnnotationValue.read? other room counterpart)) :
    Option.Rel AlikeTables (AnnotationValue.readTable? origin (room + 1) first)
      (AnnotationValue.readTable? other (room + 1) second) := by
  have reordered := paired.reordered
  cases reordered with
  | null | bool | number | string | array => exact .none
  | @object members shuffled others permuted names values =>
      have same := Reordered.sameEntries permuted names values
      refine rel_map (R := SameEntries AnnotationValue.Alike)
        (same.mapM fun member listed otherMember sameName => ?_)
        fun entries isRead otherEntries _ alike name => ?_
      · rw [← sameName.1]
        refine rel_bind_self member.1 fun name _ => ?_
        refine rel_bind (each _ _ (paired.entry listed sameName.2)) fun _ _ _ _ alike => ?_
        exact .some ⟨rfl, alike⟩
      · obtain ⟨place, stands, -⟩ := paired.stands
        have distinctMembers := distinct place members stands
        rw [← keys_of_mapM isRead] at distinctMembers
        have distinctKeys := List.Nodup.of_map some distinctMembers
        have distinctOthers := alike.keys_perm.nodup_iff.mp distinctKeys
        rw [Keyed.ofList_of_nodup distinctKeys, Keyed.ofList_of_nodup distinctOthers]
        exact alike.lookup distinctKeys name

end Json.Paired

section Reading

variable {form : Json.Form} {json : Json}

mutual

/-- A value and its counterpart are read alike, from whatever origins. -/
theorem rel_read?_value (settled : json.IsSettled form) (distinct : json.HasDistinctNames form) :
    ∀ (room : Nat) {origin other : Json.Origin} {first second : Json},
      Json.Paired form json .value origin other room first second →
      Option.Rel AnnotationValue.Alike (AnnotationValue.read? origin room first)
        (AnnotationValue.read? other room second)
  | 0, _, _, _, _, _ => .none
  | room + 1, origin, other, first, second, paired => by
      simp only [AnnotationValue.read?, Option.bind_eq_bind]
      refine rel_bind (paired.rel_split? settled) fun split _ otherSplit _ same => ?_
      obtain ⟨kind, contentOrigin, content⟩ := split
      obtain ⟨_, otherOrigin, otherContent⟩ := otherSplit
      obtain ⟨rfl, reordered, parts⟩ := same
      dsimp only at reordered parts ⊢
      cases kind with
      | bool =>
          rw [reordered.bool?_eq]
          exact rel_map_self _ .bool
      | int =>
          rw [reordered.int?_eq]
          exact rel_map_self _ .int
      | string =>
          rw [reordered.text?_eq]
          exact rel_map_self _ .string
      | classLiteral =>
          rw [reordered.text?_eq]
          exact rel_map_self _ .classLiteral
      | enumConstant =>
          rw [reordered.text?_eq]
          exact rel_map_self _ .enumConstant
      | array =>
          exact rel_map (rel_readItems?_values settled distinct room (parts .items rfl))
            fun _ _ _ _ => .array
      | nested =>
          exact rel_map (rel_read?_use settled distinct room (parts .use rfl))
            fun _ _ _ _ => .nested

/-- The items of an array and their counterparts are read alike. -/
theorem rel_readItems?_values (settled : json.IsSettled form)
    (distinct : json.HasDistinctNames form) :
    ∀ (room : Nat) {origin other : Json.Origin} {first second : Json},
      Json.Paired form json .items origin other room first second →
      Option.Rel (List.Forall₂ AnnotationValue.Alike)
        (AnnotationValue.readItems? origin room first)
        (AnnotationValue.readItems? other room second)
  | 0, _, _, _, _, _ => .none
  | room + 1, origin, other, first, second, paired => by
      rw [AnnotationValue.readItems?_eq_listOf?, AnnotationValue.readItems?_eq_listOf?]
      refine paired.reordered.rel_listOf? fun inner isNext items isArray item listed _ related => ?_
      cases isNext
      exact rel_read?_value settled distinct room (paired.item isArray listed related)

/-- A table and its counterpart are read alike. -/
theorem rel_readTable?_values (settled : json.IsSettled form)
    (distinct : json.HasDistinctNames form) :
    ∀ (room : Nat) {origin other : Json.Origin} {first second : Json},
      Json.Paired form json .table origin other room first second →
      Option.Rel AlikeTables (AnnotationValue.readTable? origin room first)
        (AnnotationValue.readTable? other room second)
  | 0, _, _, _, _, _ => .none
  | room + 1, _, _, _, _, paired =>
      paired.rel_readTable? distinct fun _ _ inner => rel_read?_value settled distinct room inner

/-- An annotation and its counterpart are read alike. -/
theorem rel_read?_use (settled : json.IsSettled form) (distinct : json.HasDistinctNames form) :
    ∀ (room : Nat) {origin other : Json.Origin} {first second : Json},
      Json.Paired form json .use origin other room first second →
      Option.Rel AnnotationUse.Alike (AnnotationUse.read? origin room first)
        (AnnotationUse.read? other room second)
  | 0, _, _, _, _, _ => .none
  | room + 1, origin, other, first, second, paired => by
      simp only [AnnotationUse.read?, Option.bind_eq_bind]
      refine rel_bind (paired.reordered.fields? _) fun fields isFields _ _ found => ?_
      refine rel_bind (found "type") fun typeJson _ _ _ sameType => ?_
      rw [sameType.text?_eq]
      refine rel_bind_self _ fun type _ => ?_
      refine rel_bind (R := AlikeTables) ?_ fun values _ _ _ alikeValues => ?_
      · refine Json.rel_fieldOr (found "values") (fun _ => .none) fun part isPart _ reordered => ?_
        have inner := paired.field isFields (.tail _ (.head _)) isPart reordered
        exact rel_readTable?_values settled distinct room inner
      refine rel_bind (R := Option.Rel AnnotationType.Alike) ?_ fun _ _ _ _ alikeDefinition => ?_
      · refine Json.rel_fieldOr (found "definition") .none fun part isPart _ reordered => ?_
        have inner := paired.field isFields (.tail _ (.tail _ (.head _))) isPart reordered
        exact reordered.rel_optional? (rel_read?_type settled distinct room inner)
      exact .some (.mk rfl alikeValues alikeDefinition)

/-- A list of annotations and its counterpart are read alike. -/
theorem rel_readItems?_uses (settled : json.IsSettled form)
    (distinct : json.HasDistinctNames form) :
    ∀ (room : Nat) {origin other : Json.Origin} {first second : Json},
      Json.Paired form json .uses origin other room first second →
      Option.Rel (List.Forall₂ AnnotationUse.Alike) (AnnotationUse.readItems? origin room first)
        (AnnotationUse.readItems? other room second)
  | 0, _, _, _, _, _ => .none
  | room + 1, origin, other, first, second, paired => by
      rw [AnnotationUse.readItems?_eq_listOf?, AnnotationUse.readItems?_eq_listOf?]
      refine paired.reordered.rel_listOf? fun inner isNext items isArray item listed _ related => ?_
      cases isNext
      exact rel_read?_use settled distinct room (paired.use isArray listed related)

/-- The declaration of an annotation type and its counterpart are read alike. -/
theorem rel_read?_type (settled : json.IsSettled form) (distinct : json.HasDistinctNames form) :
    ∀ (room : Nat) {origin other : Json.Origin} {first second : Json},
      Json.Paired form json .type origin other room first second →
      Option.Rel AnnotationType.Alike (AnnotationType.read? origin room first)
        (AnnotationType.read? other room second)
  | 0, _, _, _, _, _ => .none
  | room + 1, origin, other, first, second, paired => by
      simp only [AnnotationType.read?, Option.bind_eq_bind]
      refine rel_bind (paired.reordered.fields? _) fun fields isFields _ _ found => ?_
      refine rel_bind (found "qualified_name") fun nameJson _ _ _ sameName => ?_
      rw [sameName.text?_eq]
      refine rel_bind_self _ fun name _ => ?_
      refine rel_bind (R := List.Forall₂ AnnotationUse.Alike) ?_ fun _ _ _ _ alike => ?_
      · refine Json.rel_fieldOr (found "annotations") .nil fun part isPart _ reordered => ?_
        have inner := paired.field isFields (.tail _ (.head _)) isPart reordered
        exact rel_readItems?_uses settled distinct room inner
      exact .some (.mk rfl alike)

end

/-- A declaration and its counterpart are read alike. -/
theorem rel_read?_declaration (settled : json.IsSettled form)
    (distinct : json.HasDistinctNames form) {room : Nat} {first second : Json}
    (paired : Json.Paired form json .declaration .inPlace .inPlace room first second) :
    Option.Rel Declaration.Alike (Declaration.read? room first)
      (Declaration.read? room second) := by
  cases room with
  | zero => exact .none
  | succ room =>
      simp only [Declaration.read?, Option.bind_eq_bind]
      refine rel_bind (paired.reordered.fields? _) fun fields isFields others _ found => ?_
      refine rel_bind (found "name") fun nameJson _ _ _ sameName => ?_
      have package := Json.Reordered.fieldOr_eq none (found "package") fun _ _ same =>
        same.optional?_eq same.text?_eq
      have docTags : Json.fieldOr fields "doc_tags" [] (Json.listOf? (fun _ => Json.text?) room) =
          Json.fieldOr others "doc_tags" [] (Json.listOf? (fun _ => Json.text?) room) :=
        Json.Reordered.fieldOr_eq [] (found "doc_tags") fun _ _ same =>
          same.listOf?_eq fun _ _ _ _ sameTag => sameTag.text?_eq
      rw [sameName.text?_eq, package, docTags]
      refine rel_bind_self _ fun name _ => ?_
      refine rel_bind_self _ fun package _ => ?_
      refine rel_bind (R := List.Forall₂ AnnotationUse.Alike) ?_ fun _ _ _ _ alike => ?_
      · refine Json.rel_fieldOr (found "annotations") .nil fun part isPart _ reordered => ?_
        have uses := paired.field isFields (.tail _ (.tail _ (.head _))) isPart reordered
        rw [← AnnotationUse.readItems?_eq_listOf?, ← AnnotationUse.readItems?_eq_listOf?]
        exact rel_readItems?_uses settled distinct room uses
      refine rel_bind_self _ fun docTags _ => ?_
      exact .some ⟨rfl, rfl, alike, rfl⟩

end Reading

/-- An accessor is read alike in any order of its members. -/
theorem Accessor.read?_reordered {first second : Json} (reordered : first.Reordered second)
    (room : Nat) : Accessor.read? room first = Accessor.read? room second := by
  cases room with
  | zero => rfl
  | succ room =>
      rw [← rel_eq_iff]
      simp only [Accessor.read?, Option.bind_eq_bind]
      refine rel_bind (reordered.fields? _) fun fields _ others _ found => ?_
      have name := Json.Reordered.fieldOr_eq "" (found "name") fun _ _ same => same.text?_eq
      have flag : ∀ name, Json.fieldOr fields name false Json.bool? =
          Json.fieldOr others name false Json.bool? := fun name =>
        Json.Reordered.fieldOr_eq false (found name) fun _ _ same => same.bool?_eq
      rw [rel_eq_iff]
      simp only [name, flag]

/-- A simple type is read alike in any order of its members. -/
theorem SimpleType.read?_reordered {first second : Json} (reordered : first.Reordered second)
    (room : Nat) : SimpleType.read? room first = SimpleType.read? room second := by
  rw [← rel_eq_iff]
  simp only [SimpleType.read?, Option.bind_eq_bind]
  refine rel_bind (reordered.fields? _) fun fields _ others _ found => ?_
  refine rel_bind (found "name") fun nameJson _ _ _ sameName => ?_
  have value := Json.Reordered.fieldOr_eq none (found "value") fun _ _ same =>
    same.optional?_eq (Accessor.read?_reordered same room)
  rw [sameName.text?_eq, value, rel_eq_iff]

/-- A complex type is read alike if its nested types are. -/
theorem ComplexType.read?_reordered {nested? : Json → Option (List TypeDefinition)}
    {first second : Json} (reordered : first.Reordered second) (room : Nat)
    (nested : ∀ part other : Json, part.Reordered other → nested? part = nested? other) :
    ComplexType.read? nested? room first = ComplexType.read? nested? room second := by
  rw [← rel_eq_iff]
  simp only [ComplexType.read?, Option.bind_eq_bind]
  refine rel_bind (reordered.fields? _) fun fields _ others _ found => ?_
  refine rel_bind (found "name") fun nameJson _ _ _ sameName => ?_
  have value := Json.Reordered.fieldOr_eq none (found "value") fun _ _ same =>
    same.optional?_eq (Accessor.read?_reordered same room)
  have accessors : ∀ name, Json.fieldOr fields name [] (Json.listOf? Accessor.read? room) =
      Json.fieldOr others name [] (Json.listOf? Accessor.read? room) := fun name =>
    Json.Reordered.fieldOr_eq [] (found name) fun _ _ same =>
      same.listOf?_eq fun inner _ _ _ sameItem => Accessor.read?_reordered sameItem inner
  have nestedTypes := Json.Reordered.fieldOr_eq [] (found "nested_types") nested
  simp only [sameName.text?_eq, value, accessors, nestedTypes, rel_eq_iff]

/-- The kind is found wherever it stands among the fields. -/
theorem TypeDefinition.rel_splitKind? {first second : Json} (reordered : first.Reordered second) :
    Option.Rel (fun split other => split.1.Reordered other.1 ∧ split.2.Reordered other.2)
      (TypeDefinition.splitKind? first) (TypeDefinition.splitKind? second) := by
  cases reordered with
  | null | bool | number | string => exact .none
  | array each =>
      cases each with
      | nil => exact .none
      | cons first rest => exact .some ⟨first, .array rest⟩
  | @object members _ others permuted names values =>
      have same := Json.Reordered.sameEntries permuted names values
      have kinds := same.filter fun name => name = some "kind"
      have rest := same.filter fun name => !decide (name = some "kind")
      simp only [TypeDefinition.splitKind?, List.partition_eq_filter_filter]
      generalize members.filter (fun member => decide (member.1 = some "kind")) = first at kinds ⊢
      generalize others.filter (fun member => decide (member.1 = some "kind")) = second at kinds ⊢
      cases first with
      | nil =>
          obtain rfl := List.length_eq_zero_iff.mp kinds.length_eq.symm
          exact .none
      | cons kind repeated =>
          cases repeated with
          | nil =>
              obtain ⟨other, rfl⟩ := List.length_eq_one_iff.mp kinds.length_eq.symm
              exact .some ⟨kinds.sameName.2, .of_sameEntries rest⟩
          | cons =>
              cases second with
              | nil => cases kinds.length_eq
              | cons other others =>
                  cases others with
                  | nil => cases kinds.length_eq
                  | cons => exact .none

/-- A definition is read alike in any order of its members. -/
theorem TypeDefinition.readFrom?_reordered (origin : Json.Origin) (room : Nat)
    {first second : Json} (reordered : first.Reordered second) :
    TypeDefinition.readFrom? origin room first = TypeDefinition.readFrom? origin room second := by
  cases room with
  | zero => rfl
  | succ room =>
      rw [← rel_eq_iff]
      simp only [TypeDefinition.readFrom?, Option.bind_eq_bind]
      refine rel_bind (TypeDefinition.rel_splitKind? reordered) fun split _ other _ same => ?_
      obtain ⟨sameKind, sameRest⟩ := same
      have nested : ∀ part other : Json, part.Reordered other →
          TypeDefinition.readNested? room part = TypeDefinition.readNested? room other := by
        intro part other samePart
        rw [TypeDefinition.readNested?_eq_listOf?, TypeDefinition.readNested?_eq_listOf?]
        apply samePart.listOf?_eq
        intro inner below item other sameItem
        exact TypeDefinition.readFrom?_reordered .heldBack inner sameItem
      simp only [DefinitionKind.read?, sameKind.tag?_eq, SimpleType.read?_reordered sameRest,
        ComplexType.read?_reordered sameRest room nested, rel_eq_iff]
termination_by room

/-- A document of a definition is read alike in any order of its members. -/
theorem TypeDefinition.ofJson?_reordered {first second : Json}
    (reordered : first.Reordered second) :
    TypeDefinition.ofJson? first = TypeDefinition.ofJson? second := by
  simp only [TypeDefinition.ofJson?, TypeDefinition.read?, reordered.isSound_eq,
    TypeDefinition.readFrom?_reordered .inPlace _ reordered]

/-- The names of the fields of a definition besides its kind. -/
def TypeDefinition.fieldNames : TypeDefinition → List String
  | .simple _ => ["name", "value"]
  | .complex _ => ["name", "value", "attributes", "elements", "nested_types"]

namespace Json

/-- Members give one of the fields of a record more than once. -/
def Repeats (names : List String) (members : List (Option String × Json)) : Prop :=
  ∃ name ∈ names, 1 < members.countP fun member => member.1 = some name

variable {members : List (Option String × Json)} {names : List String}

/-- The fields of a record are not found if one of them is repeated. -/
theorem fields?_eq_none_of_repeats (repeats : Repeats names members) :
    (object members).fields? names = none := by
  obtain ⟨name, isField, twice⟩ := repeats
  by_contra read
  obtain ⟨fields, isFields⟩ := Option.ne_none_iff_exists'.mp read
  obtain ⟨named, isRecord, rfl, distinct⟩ := fields?_object_eq_some_iff.mp isFields
  cases isRecord
  have once := List.nodup_iff_count_le_one.mp distinct name
  have kept : ((named.filter fun member => names.contains member.1).map Prod.fst).count name =
      (named.map fun member => (some member.1, member.2)).countP
        fun member => member.1 = some name := by
    rw [List.count, List.countP_map, List.countP_filter, List.countP_map]
    apply List.countP_congr
    rintro ⟨first, value⟩ -
    have known : first = name → first ∈ names := fun same => same ▸ isField
    simpa using known
  omega

/-- An object that repeats a field of a record is not read as that record, from whatever
origin and with whatever room. -/
structure RejectsRepeated (members : List (Option String × Json)) : Prop where
  value : Repeats ["kind", "value"] members →
    ∀ origin room, AnnotationValue.read? origin room (.object members) = none
  use : Repeats ["type", "values", "definition"] members →
    ∀ origin room, AnnotationUse.read? origin room (.object members) = none
  type : Repeats ["qualified_name", "annotations"] members →
    ∀ origin room, AnnotationType.read? origin room (.object members) = none
  declaration : Repeats ["name", "package", "annotations", "doc_tags"] members →
    ∀ room, Declaration.read? room (.object members) = none
  accessor : Repeats ["name", "xml_idref", "xml_list", "collection", "binary_data", "map_type",
      "adapted"] members → ∀ room, Accessor.read? room (.object members) = none
  definition : ∀ origin room definition,
    TypeDefinition.readFrom? origin room (.object members) = some definition →
      ¬ Repeats ("kind" :: definition.fieldNames) members

/-- A definition is split only if it gives its kind once. -/
theorem splitKind?_object {kindJson rest : Json}
    (isSplit : TypeDefinition.splitKind? (.object members) = some (kindJson, rest)) :
    (members.countP fun member => member.1 = some "kind") = 1 ∧
      rest = .object (members.filter fun member => !decide (member.1 = some "kind")) := by
  simp only [TypeDefinition.splitKind?, List.partition_eq_filter_filter] at isSplit
  split at isSplit
  · rename_i name kind fields isPartition
    cases isSplit
    obtain ⟨kinds, rfl⟩ := Prod.mk.inj isPartition
    refine ⟨?_, rfl⟩
    rw [List.countP_eq_length_filter, kinds]
    rfl
  · cases isSplit

/-- A field that is repeated besides the kind is repeated where the kind is taken out. -/
theorem repeats_others {name : String} (isField : name ∈ names) (other : name ≠ "kind")
    (twice : 1 < members.countP fun member => member.1 = some name) :
    Repeats names (members.filter fun member => !decide (member.1 = some "kind")) := by
  refine ⟨name, isField, ?_⟩
  have same : (members.filter fun member => !decide (member.1 = some "kind")).countP
      (fun member => member.1 = some name) = members.countP fun member => member.1 = some name := by
    rw [List.countP_filter]
    apply List.countP_congr
    rintro ⟨first, value⟩ -
    have unlike : first = some name → first ≠ some "kind" := by
      rintro rfl same
      exact other (Option.some.inj same)
    simpa using unlike
  omega

/-- What is read as a definition repeats neither its kind nor its other fields. -/
theorem not_repeats_of_readFrom? {origin : Origin} {room : Nat} {definition : TypeDefinition}
    (read : TypeDefinition.readFrom? origin room (.object members) = some definition) :
    ¬ Repeats ("kind" :: definition.fieldNames) members := by
  rintro ⟨name, isField, twice⟩
  cases room with
  | zero => cases read
  | succ room =>
      rw [TypeDefinition.readFrom?, Option.bind_eq_bind, Option.bind_eq_some_iff] at read
      obtain ⟨⟨kindJson, rest⟩, isSplit, read⟩ := read
      obtain ⟨kind, -, read⟩ := Option.bind_eq_some_iff.mp read
      obtain ⟨once, rfl⟩ := splitKind?_object isSplit
      rcases List.mem_cons.mp isField with rfl | isOther
      · omega
      · have other : name ≠ "kind" := by
          rintro rfl
          cases definition <;> simp [TypeDefinition.fieldNames] at isOther
        have unread := fields?_eq_none_of_repeats (repeats_others isOther other twice)
        cases kind with
        | simple =>
            obtain ⟨type, isType, rfl⟩ := Option.map_eq_some_iff.mp read
            rw [TypeDefinition.fieldNames] at unread
            rw [SimpleType.read?, unread] at isType
            cases isType
        | complex =>
            obtain ⟨type, isType, rfl⟩ := Option.map_eq_some_iff.mp read
            rw [TypeDefinition.fieldNames] at unread
            rw [ComplexType.read?, unread] at isType
            cases isType

/-- An object that repeats a field is read as no record that has the field. -/
theorem rejectsRepeated (members : List (Option String × Json)) : RejectsRepeated members where
  value := by
    intro repeats origin room
    cases room with
    | zero => rfl
    | succ room =>
        rw [AnnotationValue.read?, ValueKind.split?, fields?_eq_none_of_repeats repeats]
        rfl
  use := by
    intro repeats origin room
    cases room with
    | zero => rfl
    | succ room => rw [AnnotationUse.read?, fields?_eq_none_of_repeats repeats]; rfl
  type := by
    intro repeats origin room
    cases room with
    | zero => rfl
    | succ room => rw [AnnotationType.read?, fields?_eq_none_of_repeats repeats]; rfl
  declaration := by
    intro repeats room
    cases room with
    | zero => rfl
    | succ room => rw [Declaration.read?, fields?_eq_none_of_repeats repeats]; rfl
  accessor := by
    intro repeats room
    cases room with
    | zero => rfl
    | succ room => rw [Accessor.read?, fields?_eq_none_of_repeats repeats]; rfl
  definition := fun _ _ _ => not_repeats_of_readFrom?

end Json

section Results

variable {form : Json.Form} {first second : Json}

/-- A document is paired with a reordered one as a whole. -/
theorem Json.Paired.of_reordered (reordered : first.Reordered second)
    (bounded : first.depth ≤ Json.nestingLimit) (words : first.HasWords) :
    Json.Paired form first form .inPlace .inPlace Json.nestingLimit first second where
  stands := ⟨.inPlace, .whole, fun _ => ⟨rfl, rfl⟩⟩
  reordered := reordered
  fits := bounded
  words := words

/-- **Reading reordered documents.** A document nests no deeper than a reader goes, and its
numbers are integers of 64 bits. Its tables have distinct names, and it makes no difference
to it whether values are held back. Then the document and any reordered one are both read
or both not, and what is read is the same but for the order of attributes. Type
definitions are read alike in any case. No record with a repeated field is read. -/
theorem reading_ignores_member_order (reordered : first.Reordered second)
    (bounded : first.depth ≤ Json.nestingLimit) (words : first.HasWords) :
    (first.HasDistinctNames .declaration → first.IsSettled .declaration →
      Option.Rel Declaration.Alike (Declaration.ofJson? first) (Declaration.ofJson? second)) ∧
    (first.HasDistinctNames .use → first.IsSettled .use →
      Option.Rel AnnotationUse.Alike (AnnotationUse.ofJson? first)
        (AnnotationUse.ofJson? second)) ∧
    (first.HasDistinctNames .value → first.IsSettled .value →
      Option.Rel AnnotationValue.Alike (AnnotationValue.ofJson? first)
        (AnnotationValue.ofJson? second)) ∧
    TypeDefinition.ofJson? first = TypeDefinition.ofJson? second ∧
    ∀ members, Json.RejectsRepeated members := by
  refine ⟨fun distinct settled => ?_, fun distinct settled => ?_, fun distinct settled => ?_,
    TypeDefinition.ofJson?_reordered reordered, Json.rejectsRepeated⟩
  · exact rel_read?_declaration settled distinct (.of_reordered reordered bounded words)
  · exact rel_read?_use settled distinct _ (.of_reordered reordered bounded words)
  · exact rel_read?_value settled distinct _ (.of_reordered reordered bounded words)

end Results

/-- The document of a kind and a content, with the content first. -/
def contentFirst (kind : ValueKind) (content : Json) : Json :=
  .record [("value", content), ("kind", .text kind.name)]

/-- A value with its content first is a reordered one. -/
theorem reordered_contentFirst (kind : ValueKind) {content other : Json}
    (reordered : content.Reordered other) :
    (kind.tagged content).Reordered (contentFirst kind other) :=
  .swap (.string _) reordered

/-- An array of a class, with the kinds before the contents. -/
def draftGroups : Json :=
  ValueKind.array.tagged (.array [ValueKind.classLiteral.tagged (.text "com.example.Draft")])

/-- The same array with the contents first, which are held back. -/
def draftGroupsReordered : Json :=
  contentFirst .array (.array [contentFirst .classLiteral (.text "com.example.Draft")])

/-- An annotation with two attributes and a member that is not a field. -/
def lengthUse : Json :=
  .record [("type", .text "javax.validation.constraints.Size"), ("line", .ofInt 12),
    ("values", .record [("max", ValueKind.int.tagged (.ofInt 8)), ("groups", draftGroups)])]

/-- The same annotation in another order, the order of attributes included. -/
def lengthUseReordered : Json :=
  .record [("values", .record [("groups", draftGroupsReordered),
      ("max", contentFirst .int (.ofInt 8))]),
    ("line", .ofInt 12), ("type", .text "javax.validation.constraints.Size")]

/-- A declaration with that annotation. -/
def codeDocument : Json :=
  .record [("name", .text "code"), ("annotations", .array [lengthUse])]

/-- The same declaration in another order. -/
def codeDocumentReordered : Json :=
  .record [("annotations", .array [lengthUseReordered]), ("name", .text "code")]

theorem reordered_draftGroups : draftGroups.Reordered draftGroupsReordered :=
  reordered_contentFirst _ (.array (.cons (reordered_contentFirst _ (.refl _)) .nil))

theorem reordered_lengthUse : lengthUse.Reordered lengthUseReordered := by
  refine .object (List.reverse_perm _).symm rfl (.cons ?_ (.cons (.refl _) (.cons (.refl _) .nil)))
  exact .swap (reordered_contentFirst _ (.refl _)) reordered_draftGroups

theorem reordered_codeDocument : codeDocument.Reordered codeDocumentReordered :=
  .swap (.refl _) (.array (.cons reordered_lengthUse .nil))

/-- Both documents of that declaration are read, and alike, as are their annotations and values. -/
theorem reading_ignores_member_order_codeDocument :
    Option.Rel Declaration.Alike (Declaration.ofJson? codeDocument)
      (Declaration.ofJson? codeDocumentReordered) ∧
    Option.Rel AnnotationUse.Alike (AnnotationUse.ofJson? lengthUse)
      (AnnotationUse.ofJson? lengthUseReordered) ∧
    Option.Rel AnnotationValue.Alike (AnnotationValue.ofJson? draftGroups)
      (AnnotationValue.ofJson? draftGroupsReordered) ∧
    (Declaration.ofJson? codeDocument).isSome := by
  obtain ⟨declarations, -⟩ :=
    reading_ignores_member_order reordered_codeDocument (by decide) (by decide)
  obtain ⟨-, uses, -⟩ := reading_ignores_member_order reordered_lengthUse (by decide) (by decide)
  obtain ⟨-, -, values, -⟩ :=
    reading_ignores_member_order reordered_draftGroups (by decide) (by decide)
  refine ⟨?_, ?_, ?_, by decide⟩
  · exact declarations (Json.hasDistinctNames_of_objects (by decide))
      (Json.isSettled_of_subterms (by decide) (by decide) (by decide))
  · exact uses (Json.hasDistinctNames_of_objects (by decide))
      (Json.isSettled_of_subterms (by decide) (by decide) (by decide))
  · exact values (Json.hasDistinctNames_of_objects (by decide))
      (Json.isSettled_of_subterms (by decide) (by decide) (by decide))

/-- Two documents whose numbers are integers of 64 bits and whose tables have distinct names
differ in the order of members, and they are not read as the same value. -/
structure ReadDifferently (first second : Json) : Prop where
  reordered : first.Reordered second
  bounded : first.depth ≤ Json.nestingLimit
  words : first.HasWords
  distinct : first.HasDistinctNames .value
  differ : ¬ Option.Rel AnnotationValue.Alike (AnnotationValue.ofJson? first)
    (AnnotationValue.ofJson? second)

/-- An array of a value that gives its kind by its place in the list of kinds. -/
def placedKind : Json :=
  .array [.array [.ofInt 0, .bool true]]

/-- An array of a value that gives its kind as a choice with an empty object. -/
def emptyChoice : Json :=
  .array [.record [("kind", .record [("bool", .record [])]), ("value", .bool true)]]

/-- An annotation with a member that is not a field and denotes no text. -/
def halfPair : Json :=
  .record [("type", .text "a.B"), ("note", .string none)]

/-- A value is read differently if only one of the two orders is read at all. -/
theorem readDifferently_of_isSome {kind : ValueKind} {content : Json}
    (bounded : (kind.tagged content).depth ≤ Json.nestingLimit)
    (words : ∀ number ∈ (kind.tagged content).numbers, number.IsWord)
    (distinct : ∀ members ∈ (kind.tagged content).objects, (members.map Prod.fst).Nodup)
    (differ : (AnnotationValue.ofJson? (kind.tagged content)).isSome ≠
      (AnnotationValue.ofJson? (contentFirst kind content)).isSome) :
    ReadDifferently (kind.tagged content) (contentFirst kind content) where
  reordered := reordered_contentFirst kind (.refl content)
  bounded := bounded
  words := words
  distinct := Json.hasDistinctNames_of_objects distinct
  differ := by
    intro related
    generalize AnnotationValue.ofJson? (kind.tagged content) = first at related differ
    generalize AnnotationValue.ofJson? (contentFirst kind content) = second at related differ
    cases related <;> exact differ rfl

/-- A kind by place, a choice with an empty object and a string that denotes no text are each
read in one order of members only. -/
theorem reading_depends_on_member_order :
    ReadDifferently (ValueKind.array.tagged placedKind) (contentFirst .array placedKind) ∧
    ReadDifferently (ValueKind.array.tagged emptyChoice) (contentFirst .array emptyChoice) ∧
    ReadDifferently (ValueKind.nested.tagged halfPair) (contentFirst .nested halfPair) := by
  refine ⟨readDifferently_of_isSome ?_ ?_ ?_ ?_, readDifferently_of_isSome ?_ ?_ ?_ ?_,
    readDifferently_of_isSome ?_ ?_ ?_ ?_⟩ <;> decide

end ConstraintFacets
