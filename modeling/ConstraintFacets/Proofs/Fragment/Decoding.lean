import ConstraintFacets.Fragment
import ConstraintFacets.Proofs.Fragment.TagReader
import Mathlib.Data.List.TakeWhile

/-! # Reading fragments back

A fragment says what type it restricts, by which facets, and under which name
(`ConstraintFacets.WrittenType`). All of this is read back from the text: the tags
by a plain reader, the base by resolving its prefix with the bindings of the
fragment itself. What is read is exactly the type that was written
(`ConstraintFacets.WrittenType.read?_document`), so a fragment determines the
name, the qualified name and the flattened facets
(`ConstraintFacets.SchemaType.fragment_decodable`).
-/

namespace ConstraintFacets

open SchemaType

/-- What a fragment says about the type that it defines. -/
structure WrittenType where
  /-- The name of the definition. -/
  name : Option String
  /-- The type that is restricted. -/
  base : QName
  /-- The facets of the restriction, in order. -/
  facets : List Restriction
  /-- Whether the restriction is written as an element without content. -/
  isSelfClosing : Bool
deriving DecidableEq

namespace WrittenType

/-- The qualified name of a reference. Its prefix is resolved with the bindings among
the attributes of an element; a reference without a prefix is in no namespace. -/
def resolve? (attributes : List (String × String)) (reference : String) : Option QName :=
  let front := reference.toList.takeWhile fun c => c ≠ ':'
  match reference.toList.dropWhile fun c => c ≠ ':' with
  | [] => some ⟨"", reference⟩
  | _ :: back =>
    (attributes.lookup ("xmlns:" ++ String.ofList front)).map fun uri => ⟨uri, String.ofList back⟩

/-- The facet that a tag stands for. -/
def facet? : Tag → Option Restriction
  | .empty name attributes => do
    let facet ← Facet.all.find? fun facet => "xs:" ++ facet.name = name
    let value ← attributes.lookup "value"
    some ⟨facet, value⟩
  | _ => none

/-- The facets in a restriction, up to the ends of the restriction and of the
definition. -/
def content? : List Tag → Option (List Restriction)
  | [] => none
  | tag :: rest =>
    if tag = .closing "xs:restriction" then
      if rest = [.closing "xs:simpleType"] then some [] else none
    else do
      let facet ← facet? tag
      let facets ← content? rest
      some (facet :: facets)

/-- What the tags of a fragment say. -/
def ofTags? : List Tag → Option WrittenType
  | .opening outer attributes :: .empty inner entries :: rest =>
    if outer = "xs:simpleType" ∧ inner = "xs:restriction" ∧
        rest = [.closing "xs:simpleType"] then do
      let base ← (entries.lookup "base").bind (resolve? attributes)
      some ⟨attributes.lookup "name", base, [], true⟩
    else none
  | .opening outer attributes :: .opening inner entries :: rest =>
    if outer = "xs:simpleType" ∧ inner = "xs:restriction" then do
      let base ← (entries.lookup "base").bind (resolve? attributes)
      let facets ← content? rest
      some ⟨attributes.lookup "name", base, facets, false⟩
    else none
  | _ => none

/-- What a fragment says, read with a rule for the values of attributes. -/
def read? (value? : List Char → Option (List Char)) (text : String) : Option WrittenType :=
  (Tag.read? value? text.toList).bind ofTags?

/-- A reference without a colon is in no namespace. -/
theorem resolve?_unprefixed (attributes : List (String × String)) {reference : String}
    (free : ':' ∉ reference.toList) : resolve? attributes reference = some ⟨"", reference⟩ := by
  have whole : reference.toList.dropWhile (fun c => decide (c ≠ ':')) = [] := by
    rw [List.dropWhile_eq_nil_iff]
    intro c member
    rw [decide_eq_true_eq]
    rintro rfl
    exact free member
  unfold resolve?
  rw [whole]

/-- The prefix of a reference ends at its first colon, and stands for what it is bound to. -/
theorem resolve?_prefixed (attributes : List (String × String)) {short : String}
    (free : ':' ∉ short.toList) (localName : String) :
    resolve? attributes (short ++ ":" ++ localName) =
      (attributes.lookup ("xmlns:" ++ short)).map fun uri => ⟨uri, localName⟩ := by
  have kept : ∀ c ∈ short.toList, decide (c ≠ ':') = true := by
    intro c member
    rw [decide_eq_true_eq]
    rintro rfl
    exact free member
  have spelled : (short ++ ":" ++ localName).toList =
      short.toList ++ (':' :: localName.toList) := by
    simp
  unfold resolve?
  rw [spelled, List.dropWhile_append_of_pos kept, List.takeWhile_append_of_pos kept,
    List.dropWhile_cons_of_neg (by simp), List.takeWhile_cons_of_neg (by simp), List.append_nil]
  simp only [String.ofList_toList]

/-- The prefix under which the namespace of a name is bound. -/
def prefixOf (name : QName) : String :=
  (conventionalPrefix? name.uri).getD targetPrefix

theorem prefixOf_mem (name : QName) : prefixOf name ∈ ["xs", "swa", "tns"] := by
  unfold prefixOf conventionalPrefix?
  split
  · decide
  · split <;> decide

/-- A name in a namespace is referred to with the prefix of that namespace. -/
theorem reference_of_qualified {name : QName} (qualified : name.isUnqualified = false) :
    reference name = prefixOf name ++ ":" ++ name.localName := by
  unfold reference QName.prefixed? prefixOf
  rw [qualified]
  cases conventionalPrefix? name.uri <;> rfl

/-- The namespace of a name is found among the bindings of a fragment, whatever
comes behind them. -/
theorem lookup_prefixOf {name : QName} (qualified : name.isUnqualified = false)
    (others : List (String × String)) :
    (("xmlns:xs", schemaNamespace) :: (bindings name ++ others)).lookup
      ("xmlns:" ++ prefixOf name) = some name.uri := by
  by_cases isSchema : name.uri = schemaNamespace
  · have short : prefixOf name = "xs" := by simp [prefixOf, conventionalPrefix?, isSchema]
    rw [short, isSchema]
    exact List.lookup_cons_self
  · have bound : bindings name = [("xmlns:" ++ prefixOf name, name.uri)] := by
      simp [bindings, prefixOf, qualified, isSchema]
    have other : ("xmlns:" ++ prefixOf name == "xmlns:xs") = false := by
      unfold prefixOf conventionalPrefix?
      rw [if_neg isSchema]
      split <;> decide
    rw [bound, List.lookup_cons, other]
    exact List.lookup_cons_self

/-- A reference is resolved to its name by the bindings that are written beside it. -/
theorem resolve?_reference {name : QName} (free : ':' ∉ name.localName.toList)
    (others : List (String × String)) :
    resolve? (("xmlns:xs", schemaNamespace) :: (bindings name ++ others)) (reference name) =
      some name := by
  cases qualified : name.isUnqualified with
  | true =>
      have noNamespace : name.uri = "" := by simpa [QName.isUnqualified] using qualified
      rw [reference, qualified, if_pos rfl, resolve?_unprefixed _ free, ← noNamespace]
  | false =>
      have noColon : ∀ short ∈ ["xs", "swa", "tns"], ':' ∉ short.toList := by simp
      rw [reference_of_qualified qualified,
        resolve?_prefixed _ (noColon _ (prefixOf_mem name)), lookup_prefixOf qualified,
        Option.map_some]

theorem lookup_name (name : QName) (definition : Option String) :
    (("xmlns:xs", schemaNamespace) ::
      (bindings name ++ definition.toList.map fun held => ("name", held))).lookup "name" =
        definition := by
  have own : (definition.toList.map fun held => ("name", held)).lookup "name" = definition := by
    cases definition with
    | none => rfl
    | some held => exact List.lookup_cons_self
  have other : ("name" == "xmlns:" ++ prefixOf name) = false := by
    have apart : ∀ short ∈ ["xs", "swa", "tns"], ("name" == "xmlns:" ++ short) = false := by simp
    exact apart _ (prefixOf_mem name)
  have first : ("name" == "xmlns:xs") = false := rfl
  rw [List.lookup_cons, first]
  change (bindings name ++ _).lookup "name" = definition
  unfold bindings
  split
  · exact own
  · change (("xmlns:" ++ prefixOf name, name.uri) :: _).lookup "name" = definition
    rw [List.lookup_cons, other]
    exact own

/-- The tag of a facet stands for that facet, with its value. -/
theorem facet?_facetTag (restriction : Restriction) :
    facet? (facetTag restriction) = some restriction := by
  obtain ⟨facet, value⟩ := restriction
  have found : Facet.all.find? (fun other => "xs:" ++ other.name = "xs:" ++ facet.name) =
      some facet := by
    cases facet <;> rfl
  rw [facetTag, facet?, found, List.lookup_cons_self]
  rfl

/-- The tags between the ends of a restriction stand for its facets, in order. -/
theorem content?_facetTags (facets : List Restriction) :
    content? (facets.map facetTag ++ [.closing "xs:restriction", .closing "xs:simpleType"]) =
      some facets := by
  induction facets with
  | nil => rfl
  | cons restriction rest ih =>
      have notClosing : facetTag restriction ≠ .closing "xs:restriction" := Tag.noConfusion
      rw [List.map_cons, List.cons_append, content?, if_neg notClosing, facet?_facetTag, ih]
      rfl

/-- The tags of a fragment say what the type is. -/
theorem ofTags?_tags (type : SchemaType) (name : Option String) :
    ofTags? (type.tags name) =
      some ⟨name, type.qualifiedName, type.allRestrictions, type.allRestrictions.isEmpty⟩ := by
  have resolved := resolve?_reference (colon_not_mem_localName type)
    (name.toList.map fun held => ("name", held))
  have named := lookup_name type.qualifiedName name
  unfold tags restrictionTags
  cases facets : type.allRestrictions with
  | nil =>
      simp only [List.cons_append, List.nil_append]
      rw [ofTags?, if_pos ⟨rfl, rfl, rfl⟩, List.lookup_cons_self, Option.bind_some, resolved, named]
      rfl
  | cons restriction rest =>
      simp only [List.cons_append, List.append_assoc, List.nil_append]
      rw [ofTags?, if_pos ⟨rfl, rfl⟩, List.lookup_cons_self, Option.bind_some, resolved,
        content?_facetTags, named]
      rfl

/-- The names of bindings are made of letters and colons. -/
theorem isName_of_mem_bindings {name : QName} {entry : String × String}
    (member : entry ∈ bindings name) : Markup.isName entry.1.toList := by
  have isName : ∀ short ∈ ["xs", "swa", "tns"], Markup.isName ("xmlns:" ++ short).toList := by
    simp [Markup.isName]
  unfold bindings at member
  split at member
  · cases member
  · rw [List.mem_singleton] at member
    rw [member]
    exact isName _ (prefixOf_mem name)

theorem isWellNamed_facetTag (restriction : Restriction) : (facetTag restriction).IsWellNamed := by
  obtain ⟨facet, value⟩ := restriction
  have facetNamed : Markup.isName ("xs:" ++ facet.name).toList := by
    cases facet <;> rfl
  have valueNamed : Markup.isName "value".toList := rfl
  refine ⟨facetNamed, ?_⟩
  intro entry member
  rw [List.mem_singleton] at member
  rw [member]
  exact valueNamed

theorem isWellNamed_restrictionTags {type : SchemaType} {tag : Tag}
    (member : tag ∈ type.restrictionTags) : tag.IsWellNamed := by
  have restrictionNamed : Markup.isName "xs:restriction".toList := rfl
  have baseNamed : ∀ entry ∈ [("base", reference type.qualifiedName)],
      Markup.isName entry.1.toList := by
    have baseNamed : Markup.isName "base".toList := rfl
    intro entry member
    rw [List.mem_singleton] at member
    rw [member]
    exact baseNamed
  unfold restrictionTags at member
  split at member
  · rw [List.mem_singleton] at member
    rw [member]
    exact ⟨restrictionNamed, baseNamed⟩
  · rw [List.cons_append, List.mem_cons, List.mem_append, List.mem_map,
      List.mem_singleton] at member
    rcases member with rfl | ⟨restriction, _, rfl⟩ | rfl
    · exact ⟨restrictionNamed, baseNamed⟩
    · exact isWellNamed_facetTag restriction
    · exact restrictionNamed

/-- All names in a fragment are made of letters and colons. -/
theorem isWellNamed_tags {type : SchemaType} {name : Option String} :
    ∀ tag ∈ type.tags name, tag.IsWellNamed := by
  have definitionNamed : Markup.isName "xs:simpleType".toList := rfl
  have bindingNamed : Markup.isName "xmlns:xs".toList := rfl
  have nameNamed : Markup.isName "name".toList := rfl
  intro tag member
  rw [tags, List.cons_append, List.mem_cons, List.mem_append, List.mem_singleton] at member
  rcases member with rfl | inner | rfl
  · refine ⟨definitionNamed, ?_⟩
    intro entry listed
    rw [List.cons_append, List.mem_cons, List.mem_append, List.mem_map] at listed
    rcases listed with rfl | bound | ⟨held, _, rfl⟩
    · exact bindingNamed
    · exact isName_of_mem_bindings bound
    · exact nameNamed
  · exact isWellNamed_restrictionTags inner
  · exact definitionNamed

/-- What is read from the text of a simple type, with any rule that reads its values
back from their written form, is the type. -/
theorem read?_document {value? : List Char → Option (List Char)} (type : SchemaType)
    (name : Option String) (held : ∀ tag ∈ type.tags name, ∀ entry ∈ tag.entries,
      value? (Markup.escape entry.2.toList) = some entry.2.toList) :
    read? value? (String.ofList (Tag.document (type.tags name))) =
      some ⟨name, type.qualifiedName, type.allRestrictions, type.allRestrictions.isEmpty⟩ := by
  have tagsRead : Tag.read? value? (Tag.document (type.tags name)) = some (type.tags name) :=
    Tag.read?_document value? isWellNamed_tags held
  rw [read?, String.toList_ofList, tagsRead, Option.bind_some, ofTags?_tags]

end WrittenType

namespace SchemaType

/-- The fragment of a simple type is the document of its tags. -/
theorem fragment_of_isSimple {type : SchemaType} (simple : type.isSimple) (name : Option String) :
    type.fragment name = .ok (String.ofList (Tag.document (type.tags name))) :=
  if_pos simple

/-- There is no fragment of a type that is not simple. -/
theorem fragment_of_not_isSimple {type : SchemaType} (complex : type.isSimple = false)
    (name : Option String) : type.fragment name = .error (.type (.notSimple type.qualifiedName)) :=
  if_neg (by simp [complex])

/-- What is read from the fragment of a type, if the type has one. -/
theorem read?_of_fragment {type : SchemaType} {name : Option String} {text : String}
    (written : type.fragment name = .ok text) :
    WrittenType.read? Markup.unescape? text =
      some ⟨name, type.qualifiedName, type.allRestrictions, type.allRestrictions.isEmpty⟩ := by
  cases simple : type.isSimple with
  | true =>
      rw [fragment_of_isSimple simple] at written
      cases written
      apply WrittenType.read?_document
      intro tag listed entry held
      exact Markup.unescape?_escape entry.2.toList
  | false =>
      rw [fragment_of_not_isSimple simple] at written
      cases written

/-- **Fragments can be decoded.** Writing a type fails, with an error about its kind,
if and only if the type is not simple. From every text that is written the name, the
qualified name of the type and its facets are read back, and the restriction is
without content if and only if there are no facets. Types with the same text under
two names agree in all of these, and so do the names. -/
theorem fragment_decodable (type : SchemaType) (name : Option String) :
    ((∃ error, type.fragment name = .error error) ↔ type.isSimple = false) ∧
    (∀ error, type.fragment name = .error error →
      error = .type (.notSimple type.qualifiedName)) ∧
    (type.isSimple → ∃ text, type.fragment name = .ok text ∧
      WrittenType.read? Markup.unescape? text = some
        { name := name
          base := type.qualifiedName
          facets := type.allRestrictions
          isSelfClosing := type.allRestrictions.isEmpty }) ∧
    (∀ text, type.fragment name = .ok text →
      ∀ (other : SchemaType) otherName, other.fragment otherName = .ok text →
        other.qualifiedName = type.qualifiedName ∧ otherName = name ∧
          other.allRestrictions = type.allRestrictions) := by
  refine ⟨⟨?_, ?_⟩, ?_, ?_, ?_⟩
  · intro fails
    obtain ⟨error, failed⟩ := fails
    cases simple : type.isSimple with
    | true =>
        rw [fragment_of_isSimple simple] at failed
        cases failed
    | false => rfl
  · intro complex
    exact ⟨_, fragment_of_not_isSimple complex name⟩
  · intro error failed
    cases simple : type.isSimple with
    | true =>
        rw [fragment_of_isSimple simple] at failed
        cases failed
    | false =>
        rw [fragment_of_not_isSimple simple] at failed
        cases failed
        rfl
  · intro simple
    have written := fragment_of_isSimple simple name
    exact ⟨_, written, read?_of_fragment written⟩
  · intro text written other otherName alsoWritten
    have same := (read?_of_fragment alsoWritten).symm.trans (read?_of_fragment written)
    simp only [Option.some.injEq, WrittenType.mk.injEq] at same
    exact ⟨same.2.1, same.1, same.2.2.1⟩

end SchemaType

end ConstraintFacets
