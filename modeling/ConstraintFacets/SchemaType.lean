import ConstraintFacets.Annotation.Basic
import ConstraintFacets.BuiltinType
import ConstraintFacets.Error
import ConstraintFacets.NCName

/-! # Schema types

A schema type is a built-in type, a type that an annotation specifies by name, or
a restriction of another schema type by facets. A restriction keeps the name of
the type it restricts; it has facets of its own, never none. So a type is one with
a name of its own under layers of facets (`ConstraintFacets.SchemaType.layers`), the
innermost layer first, and the facets along the chain of bases are those of the
layers, one layer after the other
(`ConstraintFacets.SchemaType.allRestrictions_eq_flatten`).
-/

namespace ConstraintFacets

/-- A type that is specified by name. -/
structure SpecifiedType where
  /-- The local name. -/
  localName : String
  /-- The namespace; empty if there is none. -/
  uri : String
  /-- The local name is a name without colons. -/
  valid : NCName.isValid localName
deriving DecidableEq

namespace SpecifiedType

/-- The type with a local name and a namespace. -/
def new (localName uri : String) : Except Error SpecifiedType :=
  if valid : NCName.isValid localName then .ok ⟨localName, uri, valid⟩
  else .error (.name (.notNCName localName))

/-- The type that an annotation specifies. Without a namespace it is a type of XML
Schema. -/
def ofUse (use : AnnotationUse) : Except Error SpecifiedType :=
  match (use.value? "name").bind AnnotationValue.string? with
  | some localName =>
    new localName
      (((use.value? "namespace").bind AnnotationValue.string?).getD schemaNamespace)
  | none => .error (.annotationUse
    { fault := .missingAttribute
      annotationType := some use.type
      attributeName := some "name" })

/-- The qualified name of a type. -/
def qualifiedName (type : SpecifiedType) : QName :=
  ⟨type.uri, type.localName⟩

/-- The built-in type with the same name, if there is one. -/
def builtin? (type : SpecifiedType) : Option BuiltinType :=
  BuiltinType.ofQName? type.qualifiedName

/-- Whether a type admits a facet, as the built-in type with the same name does. A
type without one admits no facets. -/
def admits (type : SpecifiedType) (facet : Facet) : Bool :=
  match type.builtin? with
  | some builtin => builtin.admits facet
  | none => false

end SpecifiedType

/-- A schema type. -/
inductive SchemaType where
  | builtin (type : BuiltinType)
  | specified (type : SpecifiedType)
  | restricted (base : SchemaType) (facets : List Restriction) (nonempty : facets ≠ [])
deriving DecidableEq

namespace SchemaType

/-- The qualified name of a type; a restriction has that of its base. -/
def qualifiedName : SchemaType → QName
  | builtin type => type.qualifiedName
  | specified type => type.qualifiedName
  | restricted base _ _ => base.qualifiedName

/-- The local name of a type. -/
def localName (type : SchemaType) : String :=
  type.qualifiedName.localName

/-- The namespace of a type. -/
def uri (type : SchemaType) : String :=
  type.qualifiedName.uri

/-- Whether a type has no name of its own. None of these types is without one. -/
def isAnonymous : SchemaType → Bool
  | builtin _ => false
  | specified _ => false
  | restricted base _ _ => base.isAnonymous

/-- Whether a type is simple. Specified types are taken to be. -/
def isSimple : SchemaType → Bool
  | builtin type => type.isSimple
  | specified _ => true
  | restricted base _ _ => base.isSimple

/-- Whether a type is a restriction of another one. -/
def isRestricted : SchemaType → Bool
  | restricted _ _ _ => true
  | _ => false

/-- Whether a type admits a facet; a restriction does if its base does. -/
def admits : SchemaType → Facet → Bool
  | builtin type, facet => type.admits facet
  | specified type, facet => type.admits facet
  | restricted base _ _, facet => base.admits facet

/-- The built-in type that a type is. A restriction of one is none. -/
def builtin? : SchemaType → Option BuiltinType
  | builtin type => some type
  | _ => none

/-- The facets that a type itself adds. -/
def restrictions : SchemaType → List Restriction
  | restricted _ facets _ => facets
  | _ => []

/-- The facets along the chain of bases, those of the innermost type first. -/
def allRestrictions : SchemaType → List Restriction
  | restricted base facets _ => base.allRestrictions ++ facets
  | _ => []

/-- The facets that a type adds although it does not admit them. -/
def inapplicable (type : SchemaType) : List Restriction :=
  type.restrictions.filter fun restriction => !type.admits restriction.facet

/-- The restriction of a base by facets, or the base itself if there are none. -/
def narrow (base : SchemaType) (facets : List Restriction) : SchemaType :=
  if empty : facets = [] then base else restricted base facets empty

/-- The restriction of a base by facets, of which there has to be one. -/
def restriction (base : SchemaType) (facets : List Restriction) : Except Error SchemaType :=
  if empty : facets = [] then .error (.type (.emptyRestriction base.qualifiedName))
  else .ok (restricted base facets empty)

/-- The facets of every restriction along the chain of bases, the innermost
restriction first. -/
def layers : SchemaType → List (List Restriction)
  | restricted base facets _ => base.layers ++ [facets]
  | _ => []

/-- No layer is without facets. -/
theorem ne_nil_of_mem_layers {type : SchemaType} {layer : List Restriction}
    (member : layer ∈ type.layers) : layer ≠ [] := by
  induction type with
  | builtin type => cases member
  | specified type => cases member
  | restricted base facets nonempty ih =>
      rcases List.mem_append.mp member with inner | outer
      · exact ih inner
      · rw [List.mem_singleton.mp outer]
        exact nonempty

/-- The facets along the chain of bases are those of the layers, the innermost layer first. -/
theorem allRestrictions_eq_flatten (type : SchemaType) :
    type.allRestrictions = type.layers.flatten := by
  induction type with
  | builtin type => rfl
  | specified type => rfl
  | restricted base facets nonempty ih =>
      rw [allRestrictions, layers, ih, List.flatten_append, List.flatten_singleton]

/-- A restriction is another type than its base. -/
theorem restricted_ne_base {base : SchemaType} {facets : List Restriction}
    (nonempty : facets ≠ []) : restricted base facets nonempty ≠ base := by
  intro same
  have sizes := congrArg (fun type => type.layers.length) same
  simp [layers] at sizes

/-- The local name of every schema type, built-in ones included, is a name without
colons. -/
theorem isValid_localName (type : SchemaType) : NCName.isValid type.qualifiedName.localName := by
  induction type with
  | builtin type => cases type <;> decide
  | specified type => exact type.valid
  | restricted base facets nonempty ih => exact ih

/-- So no colon stands in a local name, and a prefix ends at the first one. -/
theorem colon_not_mem_localName (type : SchemaType) :
    ':' ∉ type.qualifiedName.localName.toList := fun member =>
  Bool.noConfusion (NCName.isPart_of_mem (isValid_localName type) member)

end SchemaType

end ConstraintFacets
