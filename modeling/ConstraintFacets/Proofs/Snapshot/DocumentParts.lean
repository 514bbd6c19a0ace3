import ConstraintFacets.Annotation.Snapshot
import ConstraintFacets.Proofs.Snapshot.HeldBack
import ConstraintFacets.Proofs.Snapshot.MemberOrder

/-! # The parts of a document

A document that stands for a declaration has parts that stand for annotations, tables and
values (`ConstraintFacets.Json.Part`). In a value, the order of the members decides whether
the content is held back until the kind is known, and what is held back is read by other
rules: there a kind may also be given by its place in the list of kinds or as a choice with
an empty object, and every string has to denote a text, also one that is not used. In a
settled document (`ConstraintFacets.Json.IsSettled`) these rules make no difference: a part
and its counterpart in a reordered document (`ConstraintFacets.Json.Paired`), read from
whatever origins, are split into the same kind and contents that are counterparts again
(`ConstraintFacets.Json.Paired.rel_split?`).
-/

namespace ConstraintFacets

/-- A kind is found just under its own name. -/
theorem ValueKind.ofName?_eq_some_iff {kind : ValueKind} {name : String} :
    ofName? name = some kind ↔ kind.name = name := by
  constructor
  · intro found
    have holds := List.find?_some found
    exact of_decide_eq_true holds
  · rintro rfl
    exact ofName?_name kind

namespace Json

/-- What a part of a document stands for. -/
inductive Form where
  | value
  | items
  | table
  | use
  | uses
  | type
  | declaration

/-- The fields of a record, in order, with the forms of those that have parts. -/
def Form.fields : Form → List (String × Option Form)
  | .use => [("type", none), ("values", some .table), ("definition", some .type)]
  | .type => [("qualified_name", none), ("annotations", some .uses)]
  | .declaration =>
    [("name", none), ("package", none), ("annotations", some .uses), ("doc_tags", none)]
  | .value | .items | .table | .uses => []

/-- No form has two fields of the same name. -/
theorem Form.nodup_fields (form : Form) : (form.fields.map Prod.fst).Nodup := by
  cases form <;> simp [Form.fields]

/-- The form of the content of a value, if the content has parts. -/
def contentForm? : ValueKind → Option Form
  | .array => some .items
  | .nested => some .use
  | .bool | .int | .string | .classLiteral | .enumConstant => none

/-- A part of a document that stands for something of a form, with whether it is always
read in place or may be held back, as it is inside a content that a value has as a
member. -/
inductive Part (form : Form) (json : Json) : Origin → Form → Json → Prop
  | whole : Part form json .inPlace form json
  | item {origin : Origin} {items : List Json} {item : Json}
    (stands : Part form json origin .items (.array items)) (listed : item ∈ items) :
    Part form json origin .value item
  | entry {origin : Origin} {members : List (Option String × Json)}
    {member : Option String × Json} (stands : Part form json origin .table (.object members))
    (listed : member ∈ members) : Part form json origin .value member.2
  | use {origin : Origin} {items : List Json} {item : Json}
    (stands : Part form json origin .uses (.array items)) (listed : item ∈ items) :
    Part form json origin .use item
  | member {origin : Origin} {record inner : Form} {members : List (Option String × Json)}
    {name : String} {part : Json} (stands : Part form json origin record (.object members))
    (known : (name, some inner) ∈ record.fields) (given : (some name, part) ∈ members) :
    Part form json origin inner part
  | place {origin : Origin} {record inner : Form} {items : List Json} {name : String}
    {part : Json} (stands : Part form json origin record (.array items))
    (known : ((name, some inner), part) ∈ record.fields.zip items) :
    Part form json origin inner part
  | content {origin : Origin} {kind : ValueKind} {inner : Form} {content : Json}
    (stands : Part form json origin .value (.array [.text kind.name, content]))
    (hasParts : contentForm? kind = some inner) : Part form json origin inner content
  | contentMember {origin : Origin} {members : List (Option String × Json)} {kindJson : Json}
    {kind : ValueKind} {inner : Form} {content : Json}
    (stands : Part form json origin .value (.object members))
    (told : (some "kind", kindJson) ∈ members)
    (named : kindJson = .text kind.name ∨ kindJson = .object [(some kind.name, .null)])
    (given : (some "value", content) ∈ members) (hasParts : contentForm? kind = some inner) :
    Part form json .heldBack inner content

/-- Every object that stands for a table of values has distinct names. -/
def HasDistinctNames (form : Form) (json : Json) : Prop :=
  ∀ origin members, Part form json origin .table (.object members) →
    (members.map Prod.fst).Nodup

/-- A value gives its kind in a way that is understood only where it is held back: by the
place of the kind in the list of kinds, or as a choice with an empty object. -/
inductive GivesKindLoosely : Json → Prop
  | place {number : JsonNumber} {content : Json} {place : Nat}
    (isPlace : number.toInt? = some (place : Int)) (inList : place < ValueKind.all.length) :
    GivesKindLoosely (.array [.number number, content])
  | choice {members : List (Option String × Json)} {kind : ValueKind}
    (given : (some "kind", .object [(some kind.name, .object [])]) ∈ members) :
    GivesKindLoosely (.object members)

/-- It makes no difference for the values of a document whether they are held back: inside
what may be held back all strings denote texts, and no value gives its kind loosely. -/
structure IsSettled (form : Form) (json : Json) : Prop where
  texts : ∀ origin members content, Part form json origin .value (.object members) →
    (some "value", content) ∈ members → ∀ text ∈ content.texts, text.isSome
  kinds : ∀ value, Part form json .heldBack .value value → ¬ value.GivesKindLoosely

/-- All numbers of a document are integers of 64 bits. -/
def HasWords (json : Json) : Prop :=
  ∀ number ∈ json.numbers, number.IsWord

instance (json : Json) : Decidable json.HasWords :=
  inferInstanceAs (Decidable (∀ number ∈ json.numbers, number.IsWord))

section Conditions

variable {form inner : Form} {json part : Json} {origin : Origin}

/-- The parts of a document stand inside it. -/
theorem Part.mem_subterms (stands : Part form json origin inner part) : part ∈ json.subterms := by
  have step : ∀ {whole part : Json}, whole ∈ json.subterms → part ∈ whole.parts →
      part ∈ json.subterms := fun isInner listed =>
    subterms_subset isInner (mem_subterms_of_mem_parts listed)
  induction stands with
  | whole => exact self_mem_subterms json
  | item _ listed ih => exact step ih listed
  | entry _ listed ih => exact step ih (List.mem_map.mpr ⟨_, listed, rfl⟩)
  | use _ listed ih => exact step ih listed
  | member _ _ given ih => exact step ih (List.mem_map.mpr ⟨_, given, rfl⟩)
  | place _ known ih => exact step ih (List.of_mem_zip known).2
  | content _ _ ih => exact step ih (.tail _ (.head _))
  | contentMember _ _ _ given _ ih => exact step ih (List.mem_map.mpr ⟨_, given, rfl⟩)

/-- Tables have distinct names if all objects have. -/
theorem hasDistinctNames_of_objects
    (distinct : ∀ members ∈ json.objects, (members.map Prod.fst).Nodup) :
    json.HasDistinctNames form :=
  fun _ members stands => distinct members (List.mem_filterMap.mpr ⟨_, stands.mem_subterms, rfl⟩)

/-- A document is settled if all its strings denote texts, no array in it starts with an
integer and all kinds are given as texts. -/
theorem isSettled_of_subterms (texts : ∀ text ∈ json.texts, text.isSome)
    (tags : ∀ value ∈ json.subterms, (value.items?.bind List.head?).bind int? = none)
    (choices : ∀ members ∈ json.objects, ∀ member ∈ members, member.1 = some "kind" →
      member.2.text?.isSome) : json.IsSettled form where
  texts := by
    intro origin members content stands given text inside
    have isPart : content ∈ (Json.object members).parts := List.mem_map.mpr ⟨_, given, rfl⟩
    have isInner := subterms_subset stands.mem_subterms (mem_subterms_of_mem_parts isPart)
    exact texts text (texts_subset isInner inside)
  kinds := by
    intro value stands loosely
    cases loosely with
    | place isPlace _ =>
        have noInteger := tags _ stands.mem_subterms
        exact Option.some_ne_none _ (isPlace.symm.trans noInteger)
    | choice given =>
        have isText := choices _ (List.mem_filterMap.mpr ⟨_, stands.mem_subterms, rfl⟩) _ given rfl
        cases isText

end Conditions

section Kinds

variable {origin : Origin} {room : Nat} {kind : ValueKind} {json : Json}

/-- A tag that is not given by a place is read where it is held back as it is in place. -/
theorem tag?_of_not_givesKindLoosely {content : Json}
    (settled : origin = .heldBack → ¬ GivesKindLoosely (.array [json, content])) :
    json.tag? origin ValueKind.all ValueKind.name =
      json.tag? .inPlace ValueKind.all ValueKind.name := by
  cases origin with
  | inPlace => rfl
  | heldBack =>
      cases json with
      | number number =>
          unfold tag?
          dsimp only
          split
          · rename_i place isPlace
            refine List.getElem?_eq_none ?_
            by_contra inList
            exact settled rfl (.place isPlace (Nat.lt_of_not_le inList))
          · rfl
      | _ => rfl

/-- In place, only the name of a kind is read as the kind. -/
theorem eq_text_of_tag? (tagged : json.tag? .inPlace ValueKind.all ValueKind.name = some kind) :
    json = .text kind.name := by
  cases json with
  | string text =>
      obtain ⟨name, rfl, found⟩ := Option.bind_eq_some_iff.mp tagged
      rw [← ValueKind.ofName?_eq_some_iff.mp found]
      rfl
  | _ => cases tagged

/-- A choice is its name alone or the only name of an object, whose value is empty. -/
theorem choice?_eq_some_iff {name : String} :
    choice? origin room json = some name ↔
      json = .text name ∨ room ≠ 0 ∧ (json = .object [(some name, .null)] ∨
        origin = .heldBack ∧ json = .object [(some name, .object [])]) := by
  unfold choice?
  split
  · simp [text]
  · simp [text]
  · split <;> simp_all [text]
  · rename_i noText noNull noEmpty
    refine iff_of_false (by simp) ?_
    rintro (rfl | ⟨roomy, rfl | ⟨-, rfl⟩⟩)
    · exact noText _ rfl
    · cases room with
      | zero => exact roomy rfl
      | succ room => exact noNull _ _ rfl rfl
    · cases room with
      | zero => exact roomy rfl
      | succ room => exact noEmpty _ _ rfl rfl

/-- A choice that is not given with an empty object is read where it is held back as it is
in place. -/
theorem choice?_of_not_givesKindLoosely {members : List (Option String × Json)}
    (given : (some "kind", json) ∈ members)
    (settled : origin = .heldBack → ¬ GivesKindLoosely (.object members)) :
    (choice? origin room json).bind ValueKind.ofName? =
      (choice? .inPlace room json).bind ValueKind.ofName? := by
  apply Option.ext
  intro kind
  simp only [Option.bind_eq_some_iff, ValueKind.ofName?_eq_some_iff, exists_eq_right',
    choice?_eq_some_iff]
  refine or_congr_right (and_congr_right fun _ => or_congr_right (iff_of_false ?_ ?_))
  · rintro ⟨isHeldBack, rfl⟩
    exact settled isHeldBack (.choice given)
  · exact fun held => absurd held.1 (by decide)

/-- In place, a kind is given by its name or as a choice with nothing. -/
theorem named_of_choice?
    (chosen : (choice? .inPlace room json).bind ValueKind.ofName? = some kind) :
    json = .text kind.name ∨ json = .object [(some kind.name, .null)] := by
  obtain ⟨name, isName, found⟩ := Option.bind_eq_some_iff.mp chosen
  rw [ValueKind.ofName?_eq_some_iff] at found
  subst found
  rcases choice?_eq_some_iff.mp isName with isText | ⟨-, isNull | ⟨isHeldBack, -⟩⟩
  · exact .inl isText
  · exact .inr isNull
  · cases isHeldBack

end Kinds

/-- A part of a document beside its counterpart in a reordered document, with the origins
from which the two are read. They may differ where the part may be held back. -/
structure Paired (form : Form) (json : Json) (inner : Form) (origin other : Origin) (room : Nat)
    (first second : Json) : Prop where
  stands : ∃ place, Part form json place inner first ∧
    (place = .inPlace → origin = .inPlace ∧ other = .inPlace)
  reordered : first.Reordered second
  fits : first.depth ≤ room
  words : first.HasWords

namespace Paired

variable {form record inner : Form} {json first second part counterpart : Json}
  {origin other : Origin} {room : Nat}

/-- A reader with room for a document has room for its parts. -/
theorem fits_part (paired : Paired form json record origin other (room + 1) first second)
    (listed : part ∈ first.parts) : part.depth ≤ room :=
  Nat.le_of_lt_succ (Nat.lt_of_lt_of_le (depth_lt_of_mem_parts listed) paired.fits)

/-- The numbers in a part are integers of 64 bits if those of the document are. -/
theorem words_part (paired : Paired form json record origin other room first second)
    (listed : part ∈ first.parts) : part.HasWords :=
  fun number inside =>
    paired.words number (numbers_subset (mem_subterms_of_mem_parts listed) inside)

/-- A part that is read from the same origins as the whole. -/
theorem inside (paired : Paired form json record origin other (room + 1) first second)
    (listed : part ∈ first.parts) (reordered : part.Reordered counterpart)
    (stands : ∀ place, Part form json place record first → Part form json place inner part) :
    Paired form json inner origin other room part counterpart where
  stands := paired.stands.imp fun place isPart => ⟨stands place isPart.1, isPart.2⟩
  reordered := reordered
  fits := paired.fits_part listed
  words := paired.words_part listed

/-- A field with parts, by its name. -/
theorem field {fields : List (String × Json)} {name : String}
    (paired : Paired form json record origin other (room + 1) first second)
    (isFields : first.fields? (record.fields.map Prod.fst) = some fields)
    (known : (name, some inner) ∈ record.fields) (found : fields.lookup name = some part)
    (reordered : part.Reordered counterpart) :
    Paired form json inner origin other room part counterpart := by
  cases first with
  | object members =>
      have given := mem_of_lookup_fields?_object isFields found
      refine paired.inside (List.mem_map.mpr ⟨_, given, rfl⟩) reordered fun place stands => ?_
      exact .member stands known given
  | array items =>
      have placed := mem_of_lookup_fields?_array isFields found
      rw [List.zip_map_left, List.mem_map] at placed
      obtain ⟨⟨⟨otherName, otherInner⟩, otherPart⟩, inZip, same⟩ := placed
      cases same
      have distinct := record.nodup_fields
      have sameForm : some (some inner) = some otherInner :=
        ((lookup_eq_some_iff_mem distinct).mpr known).symm.trans
          ((lookup_eq_some_iff_mem distinct).mpr (List.of_mem_zip inZip).1)
      cases sameForm
      exact paired.inside (List.of_mem_zip inZip).2 reordered fun _ stands => .place stands inZip
  | _ => cases isFields

/-- Items of an array are paired with their counterparts as values. -/
theorem item {items : List Json} (isArray : first = .array items)
    (paired : Paired form json .items origin other (room + 1) first second)
    (listed : part ∈ items) (reordered : part.Reordered counterpart) :
    Paired form json .value origin other room part counterpart := by
  subst isArray
  exact paired.inside listed reordered fun _ stands => .item stands listed

/-- Items of a list of annotations are paired with their counterparts as annotations. -/
theorem use {items : List Json} (isArray : first = .array items)
    (paired : Paired form json .uses origin other (room + 1) first second)
    (listed : part ∈ items) (reordered : part.Reordered counterpart) :
    Paired form json .use origin other room part counterpart := by
  subst isArray
  exact paired.inside listed reordered fun _ stands => .use stands listed

/-- Members of a table are paired with their counterparts as values. -/
theorem entry {members : List (Option String × Json)} {member : Option String × Json}
    (paired : Paired form json .table origin other (room + 1) (.object members) second)
    (listed : member ∈ members) (reordered : member.2.Reordered counterpart) :
    Paired form json .value origin other room member.2 counterpart :=
  paired.inside (List.mem_map.mpr ⟨member, listed, rfl⟩) reordered fun _ stands =>
    .entry stands listed

/-- The same kind, with contents that are paired if they have parts. -/
def SameSplit (form : Form) (json : Json) (room : Nat)
    (split otherSplit : ValueKind × Origin × Json) : Prop :=
  split.1 = otherSplit.1 ∧ split.2.2.Reordered otherSplit.2.2 ∧
    ∀ inner, contentForm? split.1 = some inner →
      Paired form json inner split.2.1 otherSplit.2.1 room split.2.2 otherSplit.2.2

/-- Whichever of the two is held back, a settled value does not give its kind loosely. -/
theorem settled_kinds (settled : json.IsSettled form)
    (paired : Paired form json .value origin other room first second) :
    (origin = .heldBack → ¬ first.GivesKindLoosely) ∧
      (other = .heldBack → ¬ first.GivesKindLoosely) := by
  obtain ⟨place, stands, inPlace⟩ := paired.stands
  cases place with
  | inPlace =>
      obtain ⟨rfl, rfl⟩ := inPlace rfl
      exact ⟨nofun, nofun⟩
  | heldBack => exact ⟨fun _ => settled.kinds first stands, fun _ => settled.kinds first stands⟩

/-- A value that is given as an array is split alike from both origins. -/
theorem rel_split?_array {items others : List Json} (settled : json.IsSettled form)
    (paired : Paired form json .value origin other (room + 1) (.array items) (.array others))
    (each : List.Forall₂ Reordered items others) :
    Option.Rel (SameSplit form json room) (ValueKind.split? origin room (.array items))
      (ValueKind.split? other room (.array others)) := by
  match items, others, each with
  | [], _, .nil => exact .none
  | [_], _, .cons _ .nil => exact .none
  | [kindJson, content], [otherKindJson, otherContent], .cons sameKind (.cons sameContent .nil) =>
      obtain ⟨first, second⟩ := paired.settled_kinds settled
      have tags : otherKindJson.tag? other ValueKind.all ValueKind.name =
          kindJson.tag? origin ValueKind.all ValueKind.name := by
        rw [← sameKind.tag?_eq, tag?_of_not_givesKindLoosely second,
          tag?_of_not_givesKindLoosely first]
      simp only [ValueKind.split?, Option.bind_eq_bind, tags]
      refine rel_bind_self _ fun kind isKind => ?_
      refine .some ⟨rfl, sameContent, fun inner hasParts => ?_⟩
      rw [tag?_of_not_givesKindLoosely first] at isKind
      cases eq_text_of_tag? isKind
      exact paired.inside (.tail _ (.head _)) sameContent fun _ stands => .content stands hasParts
  | _ :: _ :: _ :: _, _, .cons _ (.cons _ (.cons _ _)) => exact .none

/-- Whether sound contents are held back does not matter where their origins do not. -/
theorem rel_of_isSound {R : ValueKind × Origin × Json → ValueKind × Origin × Json → Prop}
    {first second : Prop} [Decidable first] [Decidable second] {kind : ValueKind}
    {content otherContent : Json} (sound : content.isSound room)
    (otherSound : otherContent.isSound room)
    (related : ∀ place otherPlace, R (kind, place, content) (kind, otherPlace, otherContent)) :
    Option.Rel R
      (if first then if content.isSound room then some (kind, .heldBack, content) else none
        else some (kind, origin, content))
      (if second then if otherContent.isSound room then some (kind, .heldBack, otherContent)
        else none else some (kind, other, otherContent)) := by
  rw [if_pos sound, if_pos otherSound]
  split <;> split <;> exact .some (related _ _)

/-- The content of a value may be held back. -/
theorem isSound_content {members : List (Option String × Json)} {content : Json}
    (settled : json.IsSettled form)
    (paired : Paired form json .value origin other (room + 1) (.object members) second)
    (given : (some "value", content) ∈ members) : content.isSound room := by
  have listed : content ∈ (Json.object members).parts := List.mem_map.mpr ⟨_, given, rfl⟩
  obtain ⟨place, stands, -⟩ := paired.stands
  apply isSound_of_depth_le (paired.fits_part listed)
  · intro number inside
    exact JsonNumber.isFinite_of_isWord (paired.words_part listed number inside)
  · exact settled.texts place members content stands given

/-- A value that is given as an object is split alike, whichever member comes first. -/
theorem rel_split?_object {members others : List (Option String × Json)}
    (settled : json.IsSettled form)
    (paired : Paired form json .value origin other (room + 1) (.object members) (.object others))
    (same : SameEntries Reordered members others) :
    Option.Rel (SameSplit form json room) (ValueKind.split? origin room (.object members))
      (ValueKind.split? other room (.object others)) := by
  obtain ⟨firstKinds, secondKinds⟩ := paired.settled_kinds settled
  simp only [ValueKind.split?, Option.bind_eq_bind]
  refine rel_bind (rel_fields?_object same ["kind", "value"]) fun fields isFields _ _ found => ?_
  refine rel_bind (found "value") fun content contentFound otherContent _ sameContent => ?_
  refine rel_bind (found "kind") fun kindJson kindFound otherKindJson _ sameKind => ?_
  have contentGiven := mem_of_lookup_fields?_object isFields contentFound
  have kindGiven := mem_of_lookup_fields?_object isFields kindFound
  have kinds : (choice? origin room kindJson).bind ValueKind.ofName? =
      (choice? other room otherKindJson).bind ValueKind.ofName? := by
    rw [← sameKind.choice?_eq, choice?_of_not_givesKindLoosely kindGiven firstKinds,
      choice?_of_not_givesKindLoosely kindGiven secondKinds]
  have sound := paired.isSound_content settled contentGiven
  have otherSound := (sameContent.isSound_eq room).symm.trans sound
  rw [← Option.bind_assoc, ← Option.bind_assoc, ← kinds]
  refine rel_bind_self _ fun kind isKind => ?_
  refine rel_of_isSound sound otherSound fun place otherPlace => ?_
  refine ⟨rfl, sameContent, fun inner hasParts => ?_⟩
  rw [choice?_of_not_givesKindLoosely kindGiven firstKinds] at isKind
  obtain ⟨outer, stands, -⟩ := paired.stands
  have named := named_of_choice? isKind
  have listed : content ∈ (Json.object members).parts := List.mem_map.mpr ⟨_, contentGiven, rfl⟩
  exact {
    stands := ⟨.heldBack, .contentMember stands kindGiven named contentGiven hasParts, nofun⟩
    reordered := sameContent
    fits := paired.fits_part listed
    words := paired.words_part listed }

/-- A value and its counterpart are split into the same kind and paired contents. -/
theorem rel_split? (settled : json.IsSettled form)
    (paired : Paired form json .value origin other (room + 1) first second) :
    Option.Rel (SameSplit form json room) (ValueKind.split? origin room first)
      (ValueKind.split? other room second) := by
  have reordered := paired.reordered
  cases reordered with
  | null | bool | number | string => exact .none
  | array each => exact paired.rel_split?_array settled each
  | object permuted names values =>
      exact paired.rel_split?_object settled (Reordered.sameEntries permuted names values)

end Paired

end Json

end ConstraintFacets
