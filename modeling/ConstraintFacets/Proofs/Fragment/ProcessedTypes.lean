import ConstraintFacets.Proofs.Fragment.Processor

/-! # Fragments as a processor reads them

What a processor reads from the fragment of a type is the fragment of another one, with
what normalization leaves of the namespace and the values of facets
(`ConstraintFacets.SchemaType.tags_normalized`). So a processor obtains the name, the
namespace and the values as they were if and only if none of them has a tab, a line feed
or a carriage return in it (`ConstraintFacets.SchemaType.processed_fragment`).
-/

namespace ConstraintFacets

open Markup

namespace Markup

/-- No character of a text is a control character or a blank, or comes after the
surrogates. Processors read such a text as it is, and take no other text for it. -/
def IsPrinted (text : String) : Prop :=
  ∀ c ∈ text.toList, 0x20 < c.toNat ∧ c.toNat ≤ 0xD7FF

theorem IsPrinted.all_isAllowed {text : String} (printed : IsPrinted text) :
    text.toList.all isAllowed := by
  rw [List.all_eq_true]
  intro c member
  obtain ⟨low, high⟩ := printed c member
  exact isAllowed_of_printable (by omega) high

/-- Normalization makes no other text into a printed one. -/
theorem IsPrinted.normalizedText_eq_iff {text other : String} (printed : IsPrinted other) :
    normalizedText text = other ↔ text = other := by
  apply Markup.normalizedText_eq_iff
  intro c member
  have low := (printed c member).1
  constructor
  · rintro rfl
    exact absurd low (by decide)
  · rw [Bool.eq_false_iff, ne_eq, isBreak_iff]
    rintro (rfl | rfl | rfl) <;> exact absurd low (by decide)

/-- Normalization leaves a printed text as it is. -/
theorem IsPrinted.normalizedText_eq {text : String} (printed : IsPrinted text) :
    normalizedText text = text :=
  printed.normalizedText_eq_iff.mpr rfl

theorem IsPrinted.append {first second : String} (printed : IsPrinted first)
    (also : IsPrinted second) : IsPrinted (first ++ second) := by
  rw [IsPrinted, String.toList_append, List.forall_mem_append]
  exact ⟨printed, also⟩

/-- The namespaces with a conventional prefix are printed. -/
theorem isPrinted_namespaces :
    ∀ uri ∈ ["", schemaNamespace, attachmentNamespace], IsPrinted uri := by
  simp [IsPrinted, schemaNamespace, attachmentNamespace]

end Markup

/-- A name without colons is printed. -/
theorem NCName.isPrinted_of_isValid {name : String} (valid : isValid name) : IsPrinted name :=
  fun _ member => (toNat_of_isPart (isPart_of_mem valid member)).imp_right fun low =>
    Nat.le_trans low (by decide)

/-- A name with what normalization leaves of its namespace. -/
def QName.normalized (name : QName) : QName :=
  ⟨normalizedText name.uri, name.localName⟩

/-- A facet with what normalization leaves of its value. -/
def Restriction.normalized (restriction : Restriction) : Restriction :=
  ⟨restriction.facet, normalizedText restriction.value⟩

namespace SchemaType

open WrittenType

variable {type : SchemaType} {name : Option String}

theorem isPrinted_prefixOf (name : QName) : IsPrinted (prefixOf name) := by
  have printed : ∀ short ∈ ["xs", "swa", "tns"], IsPrinted short := by
    simp [IsPrinted]
  exact printed _ (prefixOf_mem name)

/-- The reference to a type is printed, since the namespace does not stand in it. -/
theorem isPrinted_reference (type : SchemaType) : IsPrinted (reference type.qualifiedName) := by
  have localName := NCName.isPrinted_of_isValid (isValid_localName type)
  cases qualified : type.qualifiedName.isUnqualified with
  | true => rwa [reference, qualified, if_pos rfl]
  | false =>
    have colon : IsPrinted ":" := by simp [IsPrinted]
    rw [reference_of_qualified qualified]
    exact ((isPrinted_prefixOf _).append colon).append localName

/-- A type with what normalization leaves of its namespace and of the values of its
facets. -/
def normalized : SchemaType → SchemaType
  | builtin type => builtin type
  | specified type => specified { type with uri := normalizedText type.uri }
  | restricted base facets nonempty =>
    restricted base.normalized (facets.map Restriction.normalized) (by simpa using nonempty)

theorem qualifiedName_normalized (type : SchemaType) :
    type.normalized.qualifiedName = type.qualifiedName.normalized := by
  induction type with
  | builtin type =>
      -- The namespaces of built-in types are fixed and have nothing to normalize.
      have known : type.qualifiedName.uri ∈ ["", schemaNamespace, attachmentNamespace] := by
        cases type <;> decide
      have kept := (isPrinted_namespaces _ known).normalizedText_eq
      change type.qualifiedName =
        ⟨normalizedText type.qualifiedName.uri, type.qualifiedName.localName⟩
      rw [kept]
  | specified type => rfl
  | restricted base facets nonempty ih => exact ih

theorem allRestrictions_normalized (type : SchemaType) :
    type.normalized.allRestrictions = type.allRestrictions.map Restriction.normalized := by
  induction type with
  | builtin type => rfl
  | specified type => rfl
  | restricted base facets nonempty ih =>
      rw [normalized, allRestrictions, allRestrictions, ih, List.map_append]

/-- Normalization neither makes nor unmakes a known namespace. -/
theorem uri_normalized_eq_iff {uri : String}
    (known : uri ∈ ["", schemaNamespace, attachmentNamespace]) (name : QName) :
    name.normalized.uri = uri ↔ name.uri = uri :=
  (isPrinted_namespaces uri known).normalizedText_eq_iff

/-- Normalization leaves no name without a namespace. -/
theorem isUnqualified_normalized (name : QName) :
    name.normalized.isUnqualified = name.isUnqualified := by
  have same : name.normalized.uri = "" ↔ name.uri = "" := uri_normalized_eq_iff (by simp) name
  rw [Bool.eq_iff_iff]
  simpa [QName.isUnqualified] using same

/-- Normalization takes no type into or out of the namespace of XML Schema. -/
theorem uri_normalized_eq_schema_iff (name : QName) :
    name.normalized.uri = schemaNamespace ↔ name.uri = schemaNamespace :=
  uri_normalized_eq_iff (by simp) name

/-- So a normalized name has the prefix that it had. -/
theorem conventionalPrefix?_normalized (name : QName) :
    conventionalPrefix? name.normalized.uri = conventionalPrefix? name.uri := by
  have attachment : name.normalized.uri = attachmentNamespace ↔ name.uri = attachmentNamespace :=
    uri_normalized_eq_iff (by simp) name
  simp only [conventionalPrefix?, uri_normalized_eq_schema_iff, attachment]

/-- A type is referred to as before, since only its namespace changes. -/
theorem reference_normalized (name : QName) : reference name.normalized = reference name := by
  simp only [reference, isUnqualified_normalized, QName.prefixed?, conventionalPrefix?_normalized]
  rfl

/-- The bindings of a normalized name are those from before, with their values normalized. -/
theorem bindings_normalized (name : QName) :
    bindings name.normalized =
      (bindings name).map fun entry => (entry.1, normalizedText entry.2) := by
  simp only [bindings, isUnqualified_normalized, conventionalPrefix?_normalized,
    uri_normalized_eq_schema_iff]
  split <;> rfl

/-- The tag of a normalized facet is that of the facet, with its value normalized. -/
theorem facetTag_normalized (restriction : Restriction) :
    facetTag restriction.normalized = (facetTag restriction).mapValues normalizedText :=
  rfl

/-- The tags of a normalized restriction are those from before, with their values normalized. -/
theorem restrictionTags_normalized (type : SchemaType) :
    type.normalized.restrictionTags =
      type.restrictionTags.map (Tag.mapValues normalizedText) := by
  have base := (isPrinted_reference type).normalizedText_eq
  rw [restrictionTags, qualifiedName_normalized, reference_normalized, allRestrictions_normalized,
    restrictionTags]
  cases type.allRestrictions with
  | nil => simp [Tag.mapValues, base]
  | cons restriction rest => simp [Tag.mapValues, base, facetTag_normalized]

/-- What normalization leaves of the tags of a type are the tags of what it leaves of the
type. -/
theorem tags_normalized (type : SchemaType) (name : Option String) :
    type.normalized.tags (name.map normalizedText) =
      (type.tags name).map (Tag.mapValues normalizedText) := by
  have schema := (isPrinted_namespaces schemaNamespace (by simp)).normalizedText_eq
  have definition : ((name.map normalizedText).toList.map fun held => ("name", held)) =
      (name.toList.map fun held => ("name", held)).map
        fun entry => (entry.1, normalizedText entry.2) := by
    cases name <;> rfl
  rw [tags, qualifiedName_normalized, bindings_normalized, restrictionTags_normalized, definition,
    tags]
  simp [Tag.mapValues, schema]

/-- The texts of a definition: its name, the namespace of the type, and the values of the
facets. -/
def texts (type : SchemaType) (name : Option String) : List String :=
  name.toList ++ type.qualifiedName.uri :: type.allRestrictions.map Restriction.value

/-- In the tags of a restriction stand the reference to the base and the values of the facets. -/
theorem entries_of_mem_restrictionTags {tag : Tag} (listed : tag ∈ type.restrictionTags) :
    tag.entries = [] ∨ tag.entries = [("base", reference type.qualifiedName)] ∨
      ∃ restriction ∈ type.allRestrictions, tag.entries = [("value", restriction.value)] := by
  unfold restrictionTags at listed
  split at listed
  · rw [List.mem_singleton] at listed
    exact .inr (.inl (listed ▸ rfl))
  · rw [List.cons_append, List.mem_cons, List.mem_append, List.mem_map,
      List.mem_singleton] at listed
    rcases listed with rfl | ⟨restriction, member, rfl⟩ | rfl
    · exact .inr (.inl rfl)
    · exact .inr (.inr ⟨restriction, member, rfl⟩)
    · exact .inl rfl

/-- The attributes of a tag in a fragment: those of the definition, the base, the value
of a facet, or none. -/
theorem entries_of_mem_tags {tag : Tag} (listed : tag ∈ type.tags name) :
    tag.entries = ("xmlns:xs", schemaNamespace) :: (bindings type.qualifiedName ++
        name.toList.map fun held => ("name", held)) ∨
      tag.entries = [] ∨ tag.entries = [("base", reference type.qualifiedName)] ∨
      ∃ restriction ∈ type.allRestrictions, tag.entries = [("value", restriction.value)] := by
  rw [tags, List.cons_append, List.mem_cons, List.mem_append, List.mem_singleton] at listed
  rcases listed with rfl | inner | rfl
  · exact .inl rfl
  · exact .inr (entries_of_mem_restrictionTags inner)
  · exact .inr (.inl rfl)

/-- A namespace is bound once, unless its binding stands in every fragment. -/
theorem bindings_cases (name : QName) : bindings name = [] ∨
    bindings name = [("xmlns:" ++ prefixOf name, name.uri)] ∧ prefixOf name ≠ "xs" := by
  unfold bindings
  split
  · exact .inl rfl
  · rename_i bound
    rw [not_or] at bound
    refine .inr ⟨rfl, ?_⟩
    rw [prefixOf, conventionalPrefix?, if_neg bound.2]
    split <;> decide

/-- The values in a fragment are texts of the definition and printed ones. -/
theorem value_of_mem_tags {tag : Tag} (listed : tag ∈ type.tags name)
    {entry : String × String} (member : entry ∈ tag.entries) :
    entry.2 ∈ type.texts name ∨ IsPrinted entry.2 := by
  rcases entries_of_mem_tags listed with outer | none | base | ⟨restriction, held, value⟩
  · rw [outer, List.mem_cons, List.mem_append, List.mem_map] at member
    rcases member with rfl | bound | ⟨definition, named, rfl⟩
    · exact .inr (isPrinted_namespaces _ (by simp))
    · rcases bindings_cases type.qualifiedName with unbound | ⟨binding, -⟩
      · rw [unbound] at bound
        cases bound
      · rw [binding, List.mem_singleton] at bound
        exact .inl (by simp [texts, bound])
    · exact .inl (List.mem_append_left _ named)
  · rw [none] at member
    cases member
  · rw [base, List.mem_singleton] at member
    exact .inr (member ▸ isPrinted_reference type)
  · rw [value, List.mem_singleton] at member
    exact .inl (by simpa [texts, member] using .inr (.inr ⟨restriction, held, rfl⟩))

/-- No tag in a fragment has two attributes of one name. -/
theorem nodup_of_mem_tags {tag : Tag} (listed : tag ∈ type.tags name) :
    (tag.entries.map Prod.fst).Nodup := by
  rcases entries_of_mem_tags listed with outer | none | base | ⟨restriction, held, value⟩
  · rcases bindings_cases type.qualifiedName with unbound | ⟨binding, short⟩
    · rw [outer, unbound]
      cases name <;> simp
    · have apart : ∀ short ∈ ["xs", "swa", "tns"], short ≠ "xs" →
          "xmlns:xs" ≠ "xmlns:" ++ short ∧ "xmlns:" ++ short ≠ "name" := by
        decide
      have other := apart _ (prefixOf_mem type.qualifiedName) short
      rw [outer, binding]
      cases name <;> simp [other]
  · rw [none]
    exact List.nodup_nil
  · rw [base]
    exact List.nodup_cons.mpr ⟨List.not_mem_nil, List.nodup_nil⟩
  · rw [value]
    exact List.nodup_cons.mpr ⟨List.not_mem_nil, List.nodup_nil⟩

/-- If the texts of a definition may stand in a document, so may all values in its tags. -/
theorem isAllowed_of_mem_tags (allowed : ∀ text ∈ type.texts name, text.toList.all isAllowed)
    {tag : Tag} (listed : tag ∈ type.tags name) {entry : String × String}
    (member : entry ∈ tag.entries) : entry.2.toList.all isAllowed := by
  rcases value_of_mem_tags listed member with own | printed
  · exact allowed _ own
  · exact printed.all_isAllowed

end SchemaType

/-- What a fragment says to a processor of XML. -/
def WrittenType.process? (text : String) : Option WrittenType :=
  (Tag.process? text.toList).bind ofTags?

namespace SchemaType

variable {type : SchemaType} {name : Option String}

/-- A processor reads what normalization leaves of a type. -/
theorem process?_document (allowed : ∀ text ∈ type.texts name, text.toList.all isAllowed) :
    WrittenType.process? (String.ofList (Tag.document (type.tags name))) =
      some ⟨name.map normalizedText, type.qualifiedName.normalized,
        type.allRestrictions.map Restriction.normalized, type.allRestrictions.isEmpty⟩ := by
  have distinct : ∀ tag ∈ type.tags name, (tag.entries.map Prod.fst).Nodup :=
    fun tag listed => nodup_of_mem_tags listed
  have values : ∀ tag ∈ type.tags name, ∀ entry ∈ tag.entries, entry.2.toList.all isAllowed :=
    fun tag listed entry member => isAllowed_of_mem_tags allowed listed member
  have processed := Tag.process?_document WrittenType.isWellNamed_tags distinct values
  rw [WrittenType.process?, String.toList_ofList, processed, Option.bind_some, ← tags_normalized,
    WrittenType.ofTags?_tags, qualifiedName_normalized, allRestrictions_normalized,
    List.isEmpty_map]

/-- Normalization leaves a definition as it was just if it leaves each of its texts. -/
theorem normalized_eq_self_iff :
    (name.map normalizedText = name ∧ type.qualifiedName.normalized = type.qualifiedName ∧
      type.allRestrictions.map Restriction.normalized = type.allRestrictions) ↔
    ∀ text ∈ type.texts name, normalizedText text = text := by
  have ofName : name.map normalizedText = name ↔
      ∀ text ∈ name.toList, normalizedText text = text := by
    cases name <;> simp
  have ofNamespace : type.qualifiedName.normalized = type.qualifiedName ↔
      normalizedText type.qualifiedName.uri = type.qualifiedName.uri := by
    constructor
    · intro same
      exact congrArg QName.uri same
    · intro same
      rw [QName.normalized, same]
  have ofFacets : type.allRestrictions.map Restriction.normalized = type.allRestrictions ↔
      ∀ text ∈ type.allRestrictions.map Restriction.value, normalizedText text = text := by
    have one (restriction : Restriction) : restriction.normalized = id restriction ↔
        normalizedText restriction.value = restriction.value := by
      cases restriction
      simp [Restriction.normalized]
    have whole := List.map_inj_left (l := type.allRestrictions) (f := Restriction.normalized)
      (g := id)
    rw [List.map_id] at whole
    simp only [whole, one, List.forall_mem_map]
  rw [ofName, ofNamespace, ofFacets, texts, List.forall_mem_append, List.forall_mem_cons]

/-- **What a processor obtains from fragments.** A simple type whose texts are made of
characters that documents may have is written, and a processor of XML reads the fragment.
It obtains the name, the type and the facets with what normalization leaves of the name,
of the namespace and of each value. These are the original ones if and only if there is
no tab, line feed or carriage return in any of the texts. -/
theorem processed_fragment {type : SchemaType} {name : Option String} (simple : type.isSimple)
    (allowed : ∀ text ∈ type.texts name, text.toList.all isAllowed) :
    ∃ text, type.fragment name = .ok text ∧
      WrittenType.process? text = some
        { name := name.map normalizedText
          base := ⟨normalizedText type.qualifiedName.uri, type.qualifiedName.localName⟩
          facets := type.allRestrictions.map fun restriction =>
            ⟨restriction.facet, normalizedText restriction.value⟩
          isSelfClosing := type.allRestrictions.isEmpty } ∧
      (WrittenType.process? text = some
        { name := name
          base := type.qualifiedName
          facets := type.allRestrictions
          isSelfClosing := type.allRestrictions.isEmpty } ↔
        ∀ text ∈ type.texts name, ∀ c ∈ text.toList, c ≠ '\t' ∧ c ≠ '\n' ∧ c ≠ '\r') := by
  have processed := process?_document allowed
  refine ⟨_, fragment_of_isSimple simple name, processed, ?_⟩
  have solid (text : String) : normalizedText text = text ↔
      ∀ c ∈ text.toList, c ≠ '\t' ∧ c ≠ '\n' ∧ c ≠ '\r' := by
    simp only [normalizedText_eq_self_iff, Bool.eq_false_iff, ne_eq, isBreak_iff, not_or]
  rw [processed, Option.some.injEq, WrittenType.mk.injEq]
  simp only [and_true, normalized_eq_self_iff, solid]

/-- A type of a namespace with an ampersand, by a pattern of marks that are escaped. -/
def markedCode : SchemaType :=
  restricted (specified ⟨"Code", "urn:shop&co", by decide⟩) [⟨.pattern, "[^<>&\"']+ ?"⟩] (by simp)

/-- Escaped marks and blanks come through. -/
theorem processed_markedCode :
    markedCode.isSimple ∧ (∀ text ∈ markedCode.texts (some "code"), text.toList.all isAllowed) ∧
      ∃ text, markedCode.fragment (some "code") = .ok text ∧
        WrittenType.process? text = some
          { name := some "code"
            base := ⟨"urn:shop&co", "Code"⟩
            facets := [⟨.pattern, "[^<>&\"']+ ?"⟩]
            isSelfClosing := false } := by
  have allowed : ∀ text ∈ markedCode.texts (some "code"), text.toList.all isAllowed := by
    decide
  have noBreaks : ∀ text ∈ markedCode.texts (some "code"), ∀ c ∈ text.toList,
      c ≠ '\t' ∧ c ≠ '\n' ∧ c ≠ '\r' := by
    simp [texts, markedCode, qualifiedName, allRestrictions, SpecifiedType.qualifiedName]
  have simple : markedCode.isSimple := rfl
  obtain ⟨text, written, -, original⟩ := processed_fragment simple allowed
  exact ⟨simple, allowed, text, written, original.mpr noBreaks⟩

/-- Strings without tabs. -/
def tabless : SchemaType :=
  restricted (builtin .string) [⟨.pattern, "[^\t]+"⟩] (by simp)

/-- To a processor the strings without tabs are those without blanks. -/
theorem process?_fragment_tabless :
    tabless.isSimple ∧ (∀ text ∈ tabless.texts none, text.toList.all isAllowed) ∧
      ∃ text, tabless.fragment none = .ok text ∧
        (WrittenType.process? text).map WrittenType.facets = some [⟨.pattern, "[^ ]+"⟩] ∧
        tabless.allRestrictions ≠ [⟨.pattern, "[^ ]+"⟩] := by
  have allowed : ∀ text ∈ tabless.texts none, text.toList.all isAllowed := by
    decide
  refine ⟨rfl, allowed, _, fragment_of_isSimple rfl none, ?_, by decide⟩
  rw [process?_document allowed, Option.map_some]
  decide

end SchemaType

end ConstraintFacets
