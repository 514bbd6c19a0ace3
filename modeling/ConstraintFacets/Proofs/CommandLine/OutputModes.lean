import ConstraintFacets.CommandLine.Run
import ConstraintFacets.Proofs.Extraction.Attributes
import ConstraintFacets.Proofs.Fragment.Decoding
import ConstraintFacets.Proofs.SchemaType.Narrowing
import ConstraintFacets.Proofs.Snapshot.Records

/-! # The two ways to show a restricted type

A run that restricts a type shows it by its facets, one in a line, or as a fragment of a
schema. Up to the showing the two runs do the same
(`ConstraintFacets.RestrictionRequest.run_cases`). The lines are those of the facets that
the type itself adds, and the fragment has the facets along its chain of bases. These are
the same facets, because a base that a run comes to is not a restriction itself
(`ConstraintFacets.isRestricted_of_baseType`). So the runs agree
(`ConstraintFacets.RestrictionRequest.output_modes_agree`), except that only simple types
have a fragment.
-/

namespace ConstraintFacets

/-- What a run is asked to restrict, and how. -/
structure RestrictionRequest where
  /-- The path of the settings. -/
  config : Option String
  /-- The path of the declaration. -/
  declaration : String
  /-- The name of the built-in type to restrict. -/
  base : Option String
  /-- The path of the package. -/
  package : Option String
  /-- The type of the accessor. -/
  itemType : Option String
  /-- Whether bounds limit the length on all types of strings. -/
  stringLike : Bool

namespace RestrictionRequest

/-- The invocation with a request, in one of the two ways to show the type. -/
def invocation (request : RestrictionRequest) (xsd : Bool) : Invocation :=
  ⟨request.config, .restrict request.declaration request.base request.package request.itemType
    request.stringLike xsd⟩

/-- The type that a request comes to restrict. -/
def base? (request : RestrictionRequest) (files : Files) : Except Error SchemaType := do
  let declaration ← files.loadDeclaration request.declaration
  baseType files declaration request.base request.package request.itemType

end RestrictionRequest

/-- A type that is specified for an accessor is no restriction. -/
theorem TypeCache.isRestricted_of_find {cache : TypeCache} {accessor package : Declaration}
    {itemType : Option String} {type : SchemaType}
    (found : (cache.find accessor itemType package).1 = .ok (some type)) :
    type.isRestricted = false := by
  have named : ∃ specified, type = .specified specified := by
    unfold find at found
    split at found
    · rename_i use _
      cases own : SpecifiedType.ofUse use with
      | error error => simp [own, Except.map] at found
      | ok specified => exact ⟨specified, by simpa [own, Except.map] using found.symm⟩
    · split at found
      · cases found
      · rename_i item _
        cases loaded : (cache.load package).1 with
        | error error => simp [loaded, Except.map] at found
        | ok types =>
            have kept : (Keyed.get? types (TypeName.erase item)).map SchemaType.specified =
                some type := by simpa [loaded, Except.map] using found
            obtain ⟨specified, -, isType⟩ := Option.map_eq_some_iff.mp kept
            exact ⟨specified, isType.symm⟩
  obtain ⟨specified, rfl⟩ := named
  rfl

/-- A run never begins with a restriction. -/
theorem isRestricted_of_baseType {files : Files} {declaration : Declaration}
    {base package itemType : Option String} {type : SchemaType}
    (resolved : baseType files declaration base package itemType = .ok type) :
    type.isRestricted = false := by
  unfold baseType at resolved
  split at resolved
  · split at resolved <;> cases resolved
    rfl
  -- What is found for the accessor is the last step, whatever package is looked at.
  · cases package <;>
    · obtain ⟨packageDeclaration, -, ends⟩ := bind_eq_ok_iff.mp resolved
      obtain ⟨found, isFound, isType⟩ := bind_eq_ok_iff.mp ends
      cases found <;> cases isType
      exact TypeCache.isRestricted_of_find isFound

namespace SchemaType

variable {base : SchemaType} {constraints : List Constraint} {policy : LengthPolicy}

/-- One step on a type that is not restricted leaves no facets but its own. -/
theorem allRestrictions_restrict (unrestricted : base.isRestricted = false) :
    (base.restrict constraints policy).allRestrictions =
      (base.restrict constraints policy).restrictions := by
  have plain : base.allRestrictions = [] ∧ base.restrictions = [] := by
    cases base with
    | restricted base facets nonempty => cases unrestricted
    | _ => exact ⟨rfl, rfl⟩
  unfold restrict narrow
  split
  · rw [plain.1, plain.2]
  · rw [allRestrictions, plain.1, List.nil_append, restrictions]

theorem isSimple_restrict : (base.restrict constraints policy).isSimple = base.isSimple :=
  @narrowBy_keeps base ⟨constraints, policy⟩ _ isSimple fun _ _ _ => rfl

theorem qualifiedName_restrict :
    (base.restrict constraints policy).qualifiedName = base.qualifiedName :=
  @narrowBy_keeps base ⟨constraints, policy⟩ _ qualifiedName fun _ _ _ => rfl

end SchemaType

/-- The line for a type without facets. -/
def unrestrictedLine (localName : String) : String :=
  textLine (localName ++ ": unrestricted")

/-- The lines of facets. -/
def facetLines (facets : List Restriction) : String :=
  String.join (facets.map fun facet => textLine facet.text)

/-- Without the schema the facets of a type are shown, or that it has none. -/
theorem showType_plain (type : SchemaType) (name : String) :
    showType type name false = .ok (if type.restrictions = [] then unrestrictedLine type.localName
      else facetLines type.restrictions) := by
  rw [showType, if_neg Bool.false_ne_true]
  cases type.restrictions <;> rfl

/-- The lines of facets have an equals sign between each facet and its value. -/
theorem equals_mem_facetLines {facets : List Restriction} (nonempty : facets ≠ []) :
    '=' ∈ (facetLines facets).toList := by
  obtain ⟨facet, rest, rfl⟩ := List.exists_cons_of_ne_nil nonempty
  simp [facetLines, textLine, Restriction.text]

/-- A name has no sign of equality, so the line for no facets is not one for facets. -/
theorem equals_not_mem_unrestrictedLine (type : SchemaType) :
    '=' ∉ (unrestrictedLine type.localName).toList := by
  have free : '=' ∉ type.localName.toList := fun member =>
    Bool.noConfusion (NCName.isPart_of_mem (SchemaType.isValid_localName type) member)
  simp [unrestrictedLine, textLine, free]

/-- The line that says that there are no facets is not mistaken for facets: it has no equals
sign. -/
theorem shown_eq_unrestrictedLine_iff (type : SchemaType) (facets : List Restriction) :
    (if facets = [] then unrestrictedLine type.localName else facetLines facets) =
      unrestrictedLine type.localName ↔ facets = [] := by
  by_cases none : facets = []
  · simp [none]
  · rw [if_neg none]
    refine iff_of_false (fun same => ?_) none
    exact equals_not_mem_unrestrictedLine type (same ▸ equals_mem_facetLines none)

namespace RestrictionRequest

variable (files : Files) (request : RestrictionRequest)

variable {files request} in
/-- After its settings are read, an invocation is a run of its request, in both modes. -/
theorem run_of_settings {settings : Settings}
    (configured : files.loadSettings request.config = .ok settings) (xsd : Bool) :
    (request.invocation xsd).run files =
      runRestrict files settings request.declaration request.base request.package request.itemType
        request.stringLike xsd := by
  simp only [invocation, Invocation.run, configured]

/-- A run fails in the same way however the type is to be shown, or it comes to a base and
what the declaration makes of it, and only then shows the type. -/
theorem run_cases :
    (∃ error, ∀ xsd, (request.invocation xsd).run files = .failure "" error) ∨
    ∃ base constraints policy name warnings, request.base? files = .ok base ∧
      base.isRestricted = false ∧
      ∀ xsd, (request.invocation xsd).run files =
        .ofResult warnings (showType (base.restrict constraints policy) name xsd) := by
  cases configured : files.loadSettings request.config with
  | error error =>
      refine .inl ⟨error, fun xsd => ?_⟩
      simp only [invocation, Invocation.run, configured]
  | ok settings =>
    simp only [run_of_settings configured, runRestrict, base?]
    cases files.loadDeclaration request.declaration with
    | error error => exact .inl ⟨error, fun _ => rfl⟩
    | ok declaration =>
      simp only [restrictedType]
      generalize (if request.stringLike then settings.withPolicy .stringLike else settings) =
        settings
      cases resolved : baseType files declaration request.base request.package
          request.itemType with
      | error error => exact .inl ⟨error, fun _ => rfl⟩
      | ok base =>
        simp only [SchemaType.decorate]
        cases declaration.constraints settings.filter with
        | error error => exact .inl ⟨.annotationUse error, fun _ => rfl⟩
        | ok constraints =>
            exact .inr ⟨base, constraints, settings.lengthPolicy, declaration.name, _, resolved,
              isRestricted_of_baseType resolved, fun _ => rfl⟩

/-- A run that shows a type by its facets agrees with a run that shows it as a fragment. -/
inductive ModesAgree : (plain marked : Outcome) → Prop
  /-- Both fail with the same error, before there is anything to show. -/
  | failed (error : Error) : ModesAgree (.failure "" error) (.failure "" error)
  /-- Both succeed with the same messages. What is read from the fragment has the facets that
  are listed, in the same order, and it has none just if the line for no facets is shown. -/
  | shown {base : SchemaType} {plain marked : Outcome} {fragment : String}
      {written : WrittenType} (resolved : request.base? files = .ok base)
      (simple : base.isSimple = true) (succeeds : plain.code = 0) (alsoSucceeds : marked.code = 0)
      (messages : plain.messages = marked.messages) (output : marked.output = textLine fragment)
      (read : WrittenType.read? Markup.unescape? fragment = some written)
      (listed : written.facets ≠ [] → plain.output = facetLines written.facets)
      (unrestricted : plain.output = unrestrictedLine written.base.localName ↔
        written.isSelfClosing = true) : ModesAgree plain marked
  /-- The base is not simple, so only its facets can be shown. -/
  | notSimple {base : SchemaType} {plain : Outcome} (resolved : request.base? files = .ok base)
      (complex : base.isSimple = false) (succeeds : plain.code = 0) :
      ModesAgree plain (.failure plain.messages (.type (.notSimple base.qualifiedName)))

variable {files request}

/-- What a run shows of a base and its restriction by one step. -/
theorem modesAgree_of_restrict {base : SchemaType} {constraints : List Constraint}
    {policy : LengthPolicy} (resolved : request.base? files = .ok base)
    (unrestricted : base.isRestricted = false) (name warnings : String) :
    ModesAgree files request
      (.ofResult warnings (showType (base.restrict constraints policy) name false))
      (.ofResult warnings (showType (base.restrict constraints policy) name true)) := by
  rw [showType_plain]
  cases simple : base.isSimple with
  | true =>
      have alsoSimple : (base.restrict constraints policy).isSimple = true :=
        SchemaType.isSimple_restrict.trans simple
      have written := SchemaType.fragment_of_isSimple alsoSimple (some name)
      have read := SchemaType.read?_of_fragment written
      rw [showType, if_pos rfl, written]
      refine .shown resolved simple rfl rfl rfl rfl read ?_ ?_
      · intro facetted
        rw [SchemaType.allRestrictions_restrict unrestricted] at facetted ⊢
        exact if_neg facetted
      · rw [List.isEmpty_iff, SchemaType.allRestrictions_restrict unrestricted]
        exact shown_eq_unrestrictedLine_iff _ _
  | false =>
      have alsoComplex : (base.restrict constraints policy).isSimple = false :=
        SchemaType.isSimple_restrict.trans simple
      rw [showType, if_pos rfl, SchemaType.fragment_of_not_isSimple alsoComplex,
        SchemaType.qualifiedName_restrict]
      exact .notSimple resolved simple rfl

/-- **The two ways to show a restricted type.** Take two runs that are asked for the same,
once to show the facets and once to show the fragment. They fail with the same error; or
they succeed with the same messages, and the facets that are read from the fragment are
those that are listed, in order; or only the fragment fails, because the base that the
request comes to is not a simple type. -/
theorem output_modes_agree {arguments xsdArguments : List String}
    (plainly : Parsed.ofArguments arguments = .run (request.invocation false))
    (asFragment : Parsed.ofArguments xsdArguments = .run (request.invocation true)) :
    ModesAgree files request (Outcome.ofArguments files arguments)
      (Outcome.ofArguments files xsdArguments) := by
  rw [Outcome.ofArguments, Outcome.ofArguments, plainly, asFragment, Outcome.ofParsed,
    Outcome.ofParsed]
  rcases run_cases files request with ⟨error, fails⟩ |
    ⟨base, constraints, policy, name, warnings, resolved, unrestricted, shows⟩
  · rw [fails, fails]
    exact .failed error
  · rw [shows, shows]
    exact modesAgree_of_restrict resolved unrestricted name warnings

/-- A field for a code of at most eight characters, with a bound on its value. -/
def codeField : Declaration where
  name := "code"
  annotations := [
    { type := ConstraintKind.digits.annotationType
      values := [("integer", .int 3), ("fraction", .int 0)] },
    { type := ConstraintKind.size.annotationType, values := [("max", .int 8)] }]

/-- The file of a field for a code, and no others. -/
def codeFiles : Files := fun path =>
  if path = "code.json" then .ok codeField.toJson.compact else .error .notFound

/-- The request to restrict the type of tokens by the constraints of the field. -/
def codeRequest : RestrictionRequest :=
  ⟨none, "code.json", some "xs:token", none, none, false⟩

/-- A field for a code, once as facets and once as a schema. -/
theorem output_modes_agree_codeField :
    Parsed.ofArguments ["restrict", "code.json", "-b", "xs:token"] =
      .run (codeRequest.invocation false) ∧
    Parsed.ofArguments ["restrict", "code.json", "-b", "xs:token", "--xsd"] =
      .run (codeRequest.invocation true) ∧
    (Outcome.ofArguments codeFiles ["restrict", "code.json", "-b", "xs:token"]).output =
      facetLines [⟨.totalDigits, "3"⟩, ⟨.fractionDigits, "0"⟩, ⟨.maxLength, "8"⟩] ∧
    ModesAgree codeFiles codeRequest
      (Outcome.ofArguments codeFiles ["restrict", "code.json", "-b", "xs:token"])
      (Outcome.ofArguments codeFiles ["restrict", "code.json", "-b", "xs:token", "--xsd"]) := by
  have plainly : Parsed.ofArguments ["restrict", "code.json", "-b", "xs:token"] =
      .run (codeRequest.invocation false) := by decide +kernel
  have asFragment : Parsed.ofArguments ["restrict", "code.json", "-b", "xs:token", "--xsd"] =
      .run (codeRequest.invocation true) := by decide +kernel
  have loaded : codeFiles.loadDeclaration "code.json" = .ok codeField :=
    Files.load_compact rfl (by rfl)
  refine ⟨plainly, asFragment, ?_, output_modes_agree plainly asFragment⟩
  have configured : codeFiles.loadSettings codeRequest.config = .ok {} := rfl
  have shown :
      (runRestrict codeFiles {} "code.json" (some "xs:token") none none false false).output =
        facetLines [⟨.totalDigits, "3"⟩, ⟨.fractionDigits, "0"⟩, ⟨.maxLength, "8"⟩] := by
    rw [runRestrict, loaded]
    rfl
  rw [Outcome.ofArguments, plainly, Outcome.ofParsed, run_of_settings configured]
  exact shown

end RestrictionRequest

end ConstraintFacets
