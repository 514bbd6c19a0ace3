import ConstraintFacets.Proofs.Snapshot.Annotations
import ConstraintFacets.Proofs.Snapshot.HeldBack
import ConstraintFacets.Proofs.Snapshot.MemberOrder
import Mathlib.Data.List.Induction

/-! # Annotations built step by step

An annotation is built from its type by steps, each of which gives a value for an
attribute or the declaration of the type (`ConstraintFacets.AnnotationUse.build`).
Whatever the steps repeat, the attributes come in the order in which they are first
given, and each has the value that is given last
(`ConstraintFacets.AnnotationUse.IsBuilt`). A document may list the same values in the
same sequence, again with repetitions (`ConstraintFacets.AnnotationUse.Listing`). The
reader enters them as the steps do, so it finds the annotation that the steps build
(`ConstraintFacets.AnnotationUse.built_as_read`).
-/

namespace ConstraintFacets

/-- Names are those of a sequence, each one once, in the order in which they first occur
there. -/
structure FirstOccurrences (sequence names : List String) : Prop where
  distinct : names.Nodup
  mem_iff : ∀ name, name ∈ names ↔ name ∈ sequence
  inOrder : names.Pairwise fun earlier later => sequence.idxOf earlier < sequence.idxOf later

/-- The next name of a sequence comes behind the others, unless it is one of them. -/
theorem FirstOccurrences.concat {sequence names : List String}
    (first : FirstOccurrences sequence names) (name : String) :
    FirstOccurrences (sequence ++ [name]) (if name ∈ names then names else names ++ [name]) := by
  have kept : names.Pairwise fun earlier later =>
      (sequence ++ [name]).idxOf earlier < (sequence ++ [name]).idxOf later := by
    refine first.inOrder.imp_of_mem fun isEarlier isLater before => ?_
    rwa [List.idxOf_append_of_mem ((first.mem_iff _).mp isEarlier),
      List.idxOf_append_of_mem ((first.mem_iff _).mp isLater)]
  split
  · rename_i early
    refine ⟨first.distinct, fun other => ?_, kept⟩
    rw [List.mem_append, List.mem_singleton, first.mem_iff]
    exact ⟨.inl, fun either => either.elim id fun same => same ▸ (first.mem_iff name).mp early⟩
  · rename_i fresh
    have freshInSequence : name ∉ sequence := fun early => fresh ((first.mem_iff name).mpr early)
    refine ⟨?_, fun other => ?_, ?_⟩
    · refine List.nodup_append.mpr ⟨first.distinct, by simp, fun other isName new isNew same => ?_⟩
      rw [same, List.mem_singleton.mp isNew] at isName
      exact fresh isName
    · rw [List.mem_append, List.mem_append, first.mem_iff]
    · refine List.pairwise_append.mpr ⟨kept, List.pairwise_singleton _ _, ?_⟩
      intro earlier isEarlier later isNew
      rw [List.mem_singleton.mp isNew, List.idxOf_append_of_notMem freshInSequence,
        List.idxOf_append_of_mem ((first.mem_iff _).mp isEarlier), List.idxOf_cons_self]
      exact List.idxOf_lt_length_of_mem ((first.mem_iff _).mp isEarlier)

namespace Keyed

variable {α : Type} {entries : List (String × α)} {name : String} {value : α}

/-- A value is the last one that is given for a name. -/
def IsLast (entries : List (String × α)) (name : String) (value : α) : Prop :=
  ∃ before after, entries = before ++ (name, value) :: after ∧ ∀ later ∈ after, later.1 ≠ name

/-- One more entry gives the last value of its own name, and leaves those of the others. -/
theorem isLast_concat_iff {entry : String × α} :
    IsLast (entries ++ [entry]) name value ↔
      if name = entry.1 then value = entry.2 else IsLast entries name value := by
  constructor
  · rintro ⟨before, after, split, others⟩
    rcases List.eq_nil_or_concat after with rfl | ⟨after, last, rfl⟩
    · obtain ⟨-, same⟩ := List.append_inj' split rfl
      obtain rfl := List.cons.inj same |>.1
      rw [if_pos rfl]
    · rw [List.concat_eq_append, ← List.cons_append, ← List.append_assoc] at split
      obtain ⟨front, same⟩ := List.append_inj' split rfl
      obtain rfl := List.cons.inj same |>.1
      rw [if_neg fun same => others entry (by simp) same.symm]
      exact ⟨before, after, front, fun later inside => others later (by simp [inside])⟩
  · split
    · rintro rfl
      rename_i same
      exact ⟨entries, [], by rw [same], by simp⟩
    · rintro ⟨before, after, rfl, others⟩
      rename_i differ
      refine ⟨before, after ++ [entry], by simp, fun later inside => ?_⟩
      rcases List.mem_append.mp inside with early | isLast
      · exact others later early
      · rw [List.mem_singleton.mp isLast]
        exact fun same => differ same.symm

/-- The table of one more entry is the table with that entry inserted. -/
theorem ofList_concat (entries : List (String × α)) (entry : String × α) :
    ofList (entries ++ [entry]) = insert (ofList entries) entry.1 entry.2 := by
  rw [ofList, List.foldl_append, List.foldl_cons, List.foldl_nil, ofList]

/-- The names of a table come in the order in which they are first entered. -/
theorem firstOccurrences_ofList (entries : List (String × α)) :
    FirstOccurrences (entries.map Prod.fst) (keys (ofList entries)) := by
  induction entries using List.reverseRecOn with
  | nil => exact ⟨.nil, fun _ => .rfl, .nil⟩
  | append_singleton entries entry ih =>
      rw [List.map_append, ofList_concat, keys_insert]
      exact ih.concat entry.1

/-- A look-up finds the value that was entered last. -/
theorem get?_ofList_eq_some_iff :
    get? (ofList entries) name = some value ↔ IsLast entries name value := by
  induction entries using List.reverseRecOn with
  | nil => simp [ofList, IsLast]
  | append_singleton entries entry ih =>
      rw [ofList_concat, get?_insert, isLast_concat_iff]
      split
      · rw [Option.some.injEq, eq_comm]
      · exact ih

/-- A name is not found in a table just if no entry has it. -/
theorem get?_ofList_eq_none_iff :
    get? (ofList entries) name = none ↔ name ∉ entries.map Prod.fst := by
  rw [← (firstOccurrences_ofList entries).mem_iff, mem_keys_iff, Option.eq_none_iff_forall_ne_some,
    not_exists]

end Keyed

namespace AnnotationUse

/-- A step of building an annotation. -/
inductive BuildStep where
  | value (name : String) (value : AnnotationValue)
  | definition (type : AnnotationType)

/-- The value that a step gives, with the name of its attribute. -/
def BuildStep.entry? : BuildStep → Option (String × AnnotationValue)
  | .value name content => some (name, content)
  | .definition _ => none

/-- The declaration that a step gives. -/
def BuildStep.definition? : BuildStep → Option AnnotationType
  | .value _ _ => none
  | .definition type => some type

/-- An annotation after one more step. -/
def after (use : AnnotationUse) : BuildStep → AnnotationUse
  | .value name value => use.withValue name value
  | .definition type => use.withDefinition type

/-- The annotation that steps build, starting from nothing but its type. -/
def build (type : String) (steps : List BuildStep) : AnnotationUse :=
  steps.foldl after { type }

/-- The values that steps give, in sequence. -/
def given (steps : List BuildStep) : List (String × AnnotationValue) :=
  steps.filterMap BuildStep.entry?

/-- The declaration that steps give last. -/
def lastDefinition (steps : List BuildStep) : Option AnnotationType :=
  (steps.filterMap BuildStep.definition?).getLast?

variable {type : String} {steps : List BuildStep}

/-- One more step is taken from what the steps before it build. -/
theorem build_concat (type : String) (steps : List BuildStep) (step : BuildStep) :
    build type (steps ++ [step]) = (build type steps).after step := by
  rw [build, List.foldl_append, List.foldl_cons, List.foldl_nil, build]

/-- An annotation that is built has its type, the values entered one after the other, and
the declaration that was given last. -/
theorem build_eq (type : String) (steps : List BuildStep) :
    build type steps = ⟨type, Keyed.ofList (given steps), lastDefinition steps⟩ := by
  induction steps using List.reverseRecOn with
  | nil => rfl
  | append_singleton steps step ih =>
      rw [build_concat, ih]
      cases step with
      | value name value =>
          have next : given (steps ++ [.value name value]) = given steps ++ [(name, value)] := by
            simp [given, BuildStep.entry?]
          have unchanged :
              lastDefinition (steps ++ [.value name value]) = lastDefinition steps := by
            simp [lastDefinition, BuildStep.definition?]
          rw [next, unchanged, Keyed.ofList_concat]
          rfl
      | definition type =>
          have unchanged : given (steps ++ [.definition type]) = given steps := by
            simp [given, BuildStep.entry?]
          have next : lastDefinition (steps ++ [.definition type]) = some type := by
            simp [lastDefinition, BuildStep.definition?]
          rw [unchanged, next]
          rfl

/-- An annotation is what steps make of its type: steps that give the declaration leave
the values as they are, the attributes come in the order in which they are first given,
and each has the value that is given last. -/
structure IsBuilt (type : String) (steps : List BuildStep) (use : AnnotationUse) : Prop where
  type_eq : use.type = type
  definition_eq : use.definition = lastDefinition steps
  values_eq : use.values =
    ((given steps).foldl (fun use entry => use.withValue entry.1 entry.2)
      ({ type } : AnnotationUse)).values
  names : FirstOccurrences ((given steps).map Prod.fst) (Keyed.keys use.values)
  value?_eq_some_iff : ∀ name value,
    use.value? name = some value ↔ Keyed.IsLast (given steps) name value
  value?_eq_none_iff : ∀ name, use.value? name = none ↔ name ∉ (given steps).map Prod.fst

/-- Giving values one by one inserts them one by one. -/
theorem values_foldl_withValue (use : AnnotationUse) (entries : List (String × AnnotationValue)) :
    (entries.foldl (fun use entry => use.withValue entry.1 entry.2) use).values =
      entries.foldl (fun table entry => Keyed.insert table entry.1 entry.2) use.values := by
  induction entries generalizing use with
  | nil => rfl
  | cons entry rest ih => exact ih (use.withValue entry.1 entry.2)

/-- What steps build has the attributes and the declaration of the type that they give. -/
theorem isBuilt_build (type : String) (steps : List BuildStep) :
    IsBuilt type steps (build type steps) := by
  rw [build_eq]
  exact {
    type_eq := rfl
    definition_eq := rfl
    values_eq := (values_foldl_withValue { type } (given steps)).symm
    names := Keyed.firstOccurrences_ofList (given steps)
    value?_eq_some_iff := fun _ _ => Keyed.get?_ofList_eq_some_iff
    value?_eq_none_iff := fun _ => Keyed.get?_ofList_eq_none_iff }

/-- The fields that tell the declaration of an annotation type. A declaration that is not
known is left out or written as `null`. -/
inductive TellsDefinition : Option AnnotationType → List (String × Json) → Prop
  | absent : TellsDefinition none []
  | null : TellsDefinition none [("definition", .null)]
  | known (type : AnnotationType) : TellsDefinition (some type) [("definition", type.toJson)]

/-- The fields of an annotation with a type and a table that lists values in sequence. -/
def listedFields (type : String) (entries : List (String × AnnotationValue)) :
    List (String × Json) :=
  [("type", .text type), ("values", .object (entries.map AnnotationValue.entryToMember))]

/-- The names of the fields of an annotation. -/
def fieldNames : List String :=
  ["type", "values", "definition"]

/-- A document is an annotation with a type, a declaration of the type, and a table that
lists values in sequence: an object with these fields and members that are not fields, in
any order, or an array of the fields. -/
inductive Listing (type : String) (entries : List (String × AnnotationValue))
    (definition : Option AnnotationType) : Json → Prop
  | object {members : List (Option String × Json)} {told others : List (String × Json)}
    (tells : TellsDefinition definition told)
    (unknown : ∀ member ∈ others, member.1 ∉ fieldNames)
    (listed : members.Perm ((listedFields type entries ++ told ++ others).map fun member =>
      (some member.1, member.2))) :
    Listing type entries definition (.object members)
  | array {told : List (String × Json)} (tells : TellsDefinition definition told) :
    Listing type entries definition (.array ((listedFields type entries ++ told).map Prod.snd))

variable {entries : List (String × AnnotationValue)} {definition : Option AnnotationType}
  {json : Json}

/-- The members of such a document are fields of an annotation, each of them once. -/
theorem TellsDefinition.fields {told : List (String × Json)}
    (tells : TellsDefinition definition told) (type : String)
    (entries : List (String × AnnotationValue)) :
    (∀ member ∈ listedFields type entries ++ told, member.1 ∈ fieldNames) ∧
      ((listedFields type entries ++ told).map Prod.fst).Nodup := by
  cases tells <;> simp [listedFields, fieldNames]

/-- The fields of a listing are found under their names, and stand in the document. -/
theorem Listing.fields? (listing : Listing type entries definition json) :
    ∃ told fields, TellsDefinition definition told ∧ json.fields? fieldNames = some fields ∧
      (∀ name, fields.lookup name = (listedFields type entries ++ told).lookup name) ∧
      ∀ field ∈ listedFields type entries ++ told, field.2 ∈ json.parts := by
  cases listing with
  | @object members told others tells unknown listed =>
      have known := tells.fields type entries
      have inOrder := Json.fields?_record_append known.1 known.2 unknown
      have same : SameEntries Eq members ((listedFields type entries ++ told ++ others).map
          fun member => (some member.1, member.2)) :=
        ⟨_, listed, List.forall₂_same.mpr fun _ _ => ⟨rfl, rfl⟩⟩
      have found := Json.rel_fields?_object same fieldNames
      rw [← Json.record, inOrder] at found
      cases isFields : (Json.object members).fields? fieldNames with
      | none => rw [isFields] at found; cases found
      | some fields =>
          rw [isFields, Option.rel_some_some] at found
          refine ⟨told, fields, tells, rfl, fun name => rel_eq_iff.mp (found name), ?_⟩
          intro field isField
          refine List.mem_map.mpr ⟨(some field.1, field.2), ?_, rfl⟩
          exact listed.mem_iff.mpr (List.mem_map.mpr
            ⟨field, List.mem_append_left others isField, rfl⟩)
  | @array told tells =>
      refine ⟨told, listedFields type entries ++ told, tells, ?_, fun name => rfl, ?_⟩
      · cases tells <;> rfl
      · exact fun field isField => List.mem_map.mpr ⟨field, isField, rfl⟩

/-- What tells the declaration of an annotation type is read as that declaration. -/
theorem TellsDefinition.read? {told : List (String × Json)} {origin : Json.Origin} {room : Nat}
    (tells : TellsDefinition definition told) (keyed : ∀ type ∈ definition, type.IsKeyed)
    (fits : ∀ field ∈ told, field.2.depth ≤ room) :
    Json.fieldOr told "definition" none (Json.optional? (AnnotationType.read? origin room)) =
      some definition := by
  cases tells with
  | absent => rfl
  | null => rfl
  | known type =>
      have back := AnnotationType.read?_toJson origin room (keyed type rfl) (fits _ (.head _))
      rw [Json.fieldOr, List.lookup_cons_self]
      rw [type.toJson_eq] at back ⊢
      exact Json.optional?_record back

/-- The values of a listing are entered one after the other. -/
theorem Listing.read? {origin : Json.Origin} {room : Nat}
    (listing : Listing type entries definition json) (bounded : json.depth ≤ room)
    (values : ∀ entry ∈ entries, entry.2.IsKeyed) (keyed : ∀ type ∈ definition, type.IsKeyed) :
    AnnotationUse.read? origin room json = some ⟨type, Keyed.ofList entries, definition⟩ := by
  obtain ⟨told, fields, tells, isFields, found, inside⟩ := listing.fields?
  obtain ⟨room, rfl⟩ : ∃ inner, room = inner + 1 := by
    have below := Json.depth_lt_of_mem_parts (inside _ (.head _))
    exact ⟨room - 1, by omega⟩
  have fits : ∀ field ∈ listedFields type entries ++ told, field.2.depth ≤ room := by
    intro field isField
    have below := Json.depth_lt_of_mem_parts (inside field isField)
    omega
  have valuesRead : Json.fieldOr fields "values" [] (AnnotationValue.readTable? origin room) =
      some (Keyed.ofList entries) := by
    obtain ⟨deeper, rfl, entriesFit⟩ := Json.depth_object_le (fits _ (.tail _ (.head _)))
    rw [Json.fieldOr, found]
    refine AnnotationValue.readTable?_entries fun entry listed => ?_
    apply AnnotationValue.read?_toJson origin deeper (values entry listed)
    exact entriesFit _ (List.mem_map.mpr ⟨entry, listed, rfl⟩)
  have definitionRead : Json.fieldOr fields "definition" none
      (Json.optional? (AnnotationType.read? origin room)) = some definition := by
    rw [Json.fieldOr, found]
    exact tells.read? keyed fun field isTold => fits field (List.mem_append_right _ isTold)
  have isFields : json.fields? ["type", "values", "definition"] = some fields := isFields
  have typeFound : fields.lookup "type" = some (.text type) := found "type"
  rw [AnnotationUse.read?]
  simp only [isFields, typeFound, valuesRead, definitionRead, Json.text?_text,
    Option.bind_eq_bind, Option.bind_some]

/-- **Building and reading.** Steps that build an annotation may give values for the same
attribute again and the declaration of the type at any time: the attributes come in the
order in which they are first given, and each has the value that is given last. A text
that lists the same values in the same sequence, and that tells the declaration given
last, is read as the same annotation, the order of its attributes included. -/
theorem built_as_read (type : String) (steps : List BuildStep) :
    IsBuilt type steps (build type steps) ∧
    ∀ text json, Json.parse text = some json →
      Listing type (given steps) (lastDefinition steps) json →
      json.depth ≤ Json.nestingLimit →
      (∀ entry ∈ given steps, entry.2.IsKeyed) →
      (∀ definition ∈ lastDefinition steps, definition.IsKeyed) →
      Files.document AnnotationUse.ofJson? text = .ok (build type steps) := by
  refine ⟨isBuilt_build type steps, ?_⟩
  intro text json parsed listing bounded values definition
  rw [Files.document, parsed, Option.bind_some, AnnotationUse.ofJson?,
    listing.read? bounded values definition, build_eq]

/-- Steps that give an attribute again, between two declarations of the type. -/
def revisedSize : List BuildStep :=
  [.value "min" (.int 1), .definition { qualifiedName := sizeType.qualifiedName },
    .value "groups" (.array [.classLiteral "com.example.Draft"]), .value "min" (.int 2),
    .definition sizeType]

/-- A document that lists the values of these steps before it tells the type, with a member
that is not a field. -/
def revisedSizeDocument : Json :=
  .record [("values", .object ((given revisedSize).map AnnotationValue.entryToMember)),
    ("definition", sizeType.toJson), ("note", .array []), ("type", .text sizeType.qualifiedName)]

/-- The attribute that is given first keeps its place and takes the later value. -/
theorem built_as_read_revisedSize :
    revisedSizeDocument.depth ≤ Json.nestingLimit ∧
    (build sizeType.qualifiedName revisedSize).values =
      [("min", .int 2), ("groups", .array [.classLiteral "com.example.Draft"])] ∧
    Files.document AnnotationUse.ofJson? revisedSizeDocument.compact =
      .ok (build sizeType.qualifiedName revisedSize) := by
  have shallow : revisedSizeDocument.depth ≤ Json.nestingLimit := by decide
  have listing : Listing sizeType.qualifiedName (given revisedSize) (some sizeType)
      revisedSizeDocument := by
    have unknown : ∀ member ∈ [("note", Json.array [])], member.1 ∉ fieldNames := by
      simp [fieldNames]
    exact .object (.known sizeType) unknown (@List.perm_append_comm _ [_, _, _] [_])
  have values : ∀ entry ∈ given revisedSize, entry.2.IsKeyed := by
    have inSequence : given revisedSize =
        [("min", .int 1), ("groups", .array [.classLiteral "com.example.Draft"]),
          ("min", .int 2)] := rfl
    rw [inSequence, List.forall_mem_cons, List.forall_mem_cons, List.forall_mem_singleton]
    refine ⟨.int 1, .array fun item listed => ?_, .int 2⟩
    rw [List.mem_singleton.mp listed]
    exact .classLiteral _
  have definition : ∀ type ∈ lastDefinition revisedSize, type.IsKeyed := by
    intro type isLast
    cases isLast
    exact isKeyed_sizeType
  refine ⟨shallow, rfl, ?_⟩
  exact (built_as_read sizeType.qualifiedName revisedSize).2 _ revisedSizeDocument
    (Json.parse_compact _) listing shallow values definition

end AnnotationUse

end ConstraintFacets
