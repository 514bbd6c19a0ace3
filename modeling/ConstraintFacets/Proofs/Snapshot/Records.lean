import ConstraintFacets.CommandLine.Files
import ConstraintFacets.Json.RoundTrip

/-! # Reading a record back

A record is written as an object of its fields, of which those at their default may
be left out (`ConstraintFacets.Json.given`). Every field that is written is found
again (`ConstraintFacets.Json.fieldOr_given_present`), and a field that is left out
is restored by its default (`ConstraintFacets.Json.fieldOr_given_absent`). Arrays are
read back item by item (`ConstraintFacets.Json.mapM_map_eq_some`). How deep the parts
of a value nest follows from how deep the value does
(`ConstraintFacets.Json.depth_array_le`, `ConstraintFacets.Json.depth_given_le`).
-/

namespace ConstraintFacets

/-- A value is read back from its compact text, and whatever is read from that text
is written as the same text again. -/
structure ReadsBack {α : Type} (write : α → Json) (read? : Json → Option α) (value : α) :
    Prop where
  read : Files.document read? (write value).compact = .ok value
  rewritten : (Files.document read? (write value).compact).map
    (fun again => (write again).compact) = .ok (write value).compact

/-- What is read back from its document is read back from the text of it. -/
theorem readsBack_of_read? {α : Type} {write : α → Json} {read? : Json → Option α} {value : α}
    (read : read? (write value) = some value) : ReadsBack write read? value := by
  have document : Files.document read? (write value).compact = .ok value := by
    rw [Files.document, Json.parse_compact, Option.bind_some, read]
  refine ⟨document, ?_⟩
  rw [document]
  rfl

/-- A file with the text of a document is read as the document is. -/
theorem Files.load_compact {α : Type} {files : Files} {read? : Json → Option α} {path : String}
    {json : Json} {value : α} (written : files path = .ok json.compact)
    (reads : read? json = some value) : files.load read? path = .ok value := by
  rw [load, written]
  simp only [document, Json.parse_compact, Option.bind_some, reads]

namespace Json

variable {items : List Json} {members : List (String × Json)} {room : Nat}

/-- An item nests no deeper than the items together. -/
theorem depth_le_of_mem_items {item : Json} (member : item ∈ items) :
    item.depth ≤ depthOfItems items := by
  induction items with
  | nil => cases member
  | cons first rest ih =>
      rw [depthOfItems]
      rcases List.mem_cons.mp member with rfl | later
      · exact Nat.le_max_left _ _
      · exact Nat.le_trans (ih later) (Nat.le_max_right _ _)

/-- The value of a member nests no deeper than the members together. -/
theorem depth_le_of_mem_members {members : List (Option String × Json)}
    {member : Option String × Json} (listed : member ∈ members) :
    member.2.depth ≤ depthOfMembers members := by
  induction members with
  | nil => cases listed
  | cons first rest ih =>
      rw [depthOfMembers]
      rcases List.mem_cons.mp listed with rfl | later
      · exact Nat.le_max_left _ _
      · exact Nat.le_trans (ih later) (Nat.le_max_right _ _)

/-- A reader with room for an array has room for its items within it. -/
theorem depth_array_le (bounded : (Json.array items).depth ≤ room) :
    ∃ inner, room = inner + 1 ∧ ∀ item ∈ items, item.depth ≤ inner := by
  rw [depth] at bounded
  refine ⟨room - 1, by omega, fun item member => ?_⟩
  have below := depth_le_of_mem_items member
  omega

/-- A reader with room for an object has room for its members within it. -/
theorem depth_object_le {members : List (Option String × Json)}
    (bounded : (Json.object members).depth ≤ room) :
    ∃ inner, room = inner + 1 ∧ ∀ member ∈ members, member.2.depth ≤ inner := by
  rw [depth] at bounded
  refine ⟨room - 1, by omega, fun member listed => ?_⟩
  have below := depth_le_of_mem_members listed
  omega

/-- The fields of a record need one level less than the record. -/
theorem depth_record_le (bounded : (record members).depth ≤ room) :
    ∃ inner, room = inner + 1 ∧ ∀ member ∈ members, member.2.depth ≤ inner := by
  obtain ⟨inner, isNext, fits⟩ := depth_object_le bounded
  refine ⟨inner, isNext, fun member listed => ?_⟩
  exact fits (some member.1, member.2) (List.mem_map.mpr ⟨member, listed, rfl⟩)

/-- A list is read back from its written items if each of them is. -/
theorem mapM_map_eq_some {α β : Type} {write : α → β} {read? : β → Option α} {values : List α}
    (back : ∀ value ∈ values, read? (write value) = some value) :
    (values.map write).mapM read? = some values := by
  induction values with
  | nil => rfl
  | cons value rest ih =>
      rw [List.forall_mem_cons] at back
      rw [List.map_cons, List.mapM_cons, back.1, ih back.2]
      rfl

/-- A list is read from the items that are written for it, and from no others, if that holds
of each item. -/
theorem mapM_eq_some_iff {α β : Type} {write : α → β} {read? : β → Option α}
    (each : ∀ item value, read? item = some value ↔ item = write value) {items : List β}
    {values : List α} : items.mapM read? = some values ↔ items = values.map write := by
  constructor
  · intro read
    induction items generalizing values with
    | nil => cases read; rfl
    | cons item rest ih =>
        rw [List.mapM_cons] at read
        obtain ⟨first, firstRead, read⟩ := Option.bind_eq_some_iff.mp read
        obtain ⟨others, othersRead, read⟩ := Option.bind_eq_some_iff.mp read
        cases read
        rw [List.map_cons, (each item first).mp firstRead, ih othersRead]
  · intro written
    rw [written]
    exact mapM_map_eq_some fun value _ => (each _ value).mpr rfl

/-- A list is read back if its items are. -/
theorem listOf?_array {α : Type} {write : α → Json} {read? : Nat → Json → Option α}
    {values : List α} (bounded : (Json.array (values.map write)).depth ≤ room)
    (back : ∀ value ∈ values, ∀ inner < room, (write value).depth ≤ inner →
      read? inner (write value) = some value) :
    listOf? read? room (.array (values.map write)) = some values := by
  obtain ⟨inner, rfl, fits⟩ := depth_array_le bounded
  apply mapM_map_eq_some
  intro value listed
  apply back value listed inner (Nat.lt_succ_self inner)
  exact fits _ (List.mem_map.mpr ⟨value, listed, rfl⟩)

/-- An array may be held back if its items may. -/
theorem isSound_array {α : Type} {write : α → Json} {values : List α}
    (bounded : (Json.array (values.map write)).depth ≤ room)
    (sound : ∀ value ∈ values, ∀ inner < room, (write value).depth ≤ inner →
      (write value).isSound inner) :
    (Json.array (values.map write)).isSound room := by
  obtain ⟨inner, rfl, fits⟩ := depth_array_le bounded
  rw [isSound, List.all_eq_true]
  intro item listed
  have itemFits := fits item listed
  obtain ⟨value, member, rfl⟩ := List.mem_map.mp listed
  exact sound value member inner (Nat.lt_succ_self inner) itemFits

theorem isSound_text (value : String) (room : Nat) : (text value).isSound room := by
  cases room <;> rfl

/-- A record may be held back if its members may. -/
theorem isSound_record (sound : ∀ member ∈ members, member.2.isSound room) :
    (record members).isSound (room + 1) := by
  rw [record, isSound, List.all_eq_true]
  intro member listed
  obtain ⟨field, inFields, rfl⟩ := List.mem_map.mp listed
  exact sound field inFields

/-- The fields of a record that are written, in order. -/
def given (fields : List (String × Option Json)) : List (String × Json) :=
  fields.filterMap fun field => field.2.map fun json => (field.1, json)

section Given

variable {fields : List (String × Option Json)} {name : String}

/-- The members that are given are the fields that are not left out. -/
theorem mem_given_iff {member : String × Json} :
    member ∈ given fields ↔ (member.1, some member.2) ∈ fields := by
  obtain ⟨name, json⟩ := member
  rw [given, List.mem_filterMap]
  constructor
  · rintro ⟨⟨first, written⟩, listed, kept⟩
    obtain ⟨_, rfl, same⟩ := Option.map_eq_some_iff.mp kept
    cases same
    exact listed
  · intro listed
    exact ⟨_, listed, rfl⟩

/-- The fields of a record that are written need one level less than the record. -/
theorem depth_given_le (bounded : (record (given fields)).depth ≤ room) :
    ∃ inner, room = inner + 1 ∧
      ∀ name json, (name, some json) ∈ fields → json.depth ≤ inner := by
  obtain ⟨inner, isNext, fits⟩ := depth_record_le bounded
  exact ⟨inner, isNext, fun name json written => fits (name, json) (mem_given_iff.mpr written)⟩

/-- The names that are given are names of fields, in order. -/
theorem keys_given_sublist (fields : List (String × Option Json)) :
    ((given fields).map Prod.fst).Sublist (fields.map Prod.fst) := by
  induction fields with
  | nil => exact .slnil
  | cons field rest ih =>
      obtain ⟨name, written⟩ := field
      cases written with
      | none => exact ih.cons name
      | some json => exact ih.cons_cons name

/-- The known fields of a record are found among members that are not fields. -/
theorem fields?_record_append {names : List String} {others : List (String × Json)}
    (known : ∀ member ∈ members, member.1 ∈ names) (distinct : (members.map Prod.fst).Nodup)
    (unknown : ∀ member ∈ others, member.1 ∉ names) :
    (record (members ++ others)).fields? names = some members := by
  have named : ((members ++ others).map fun member => (some member.1, member.2)).mapM
      (fun member : Option String × Json => member.1.map fun name => (name, member.2)) =
        some (members ++ others) :=
    mapM_map_eq_some fun member _ => rfl
  have kept : (members.filter fun member => names.contains member.1) = members := by
    apply List.filter_eq_self.mpr
    intro member listed
    exact List.contains_iff_mem.mpr (known member listed)
  have left : (others.filter fun member => names.contains member.1) = [] := by
    apply List.filter_eq_nil_iff.mpr
    intro member listed contained
    exact unknown member listed (List.contains_iff_mem.mp contained)
  simp only [record, fields?, named, List.filter_append, kept, left, List.append_nil,
    Option.bind_eq_bind, Option.bind_some]
  exact if_pos distinct

/-- All members of a record of known and distinct fields are its fields. -/
theorem fields?_record {names : List String}
    (known : ∀ member ∈ members, member.1 ∈ names) (distinct : (members.map Prod.fst).Nodup) :
    (record members).fields? names = some members := by
  have unknown : ∀ member ∈ ([] : List (String × Json)), member.1 ∉ names := by simp
  simpa using fields?_record_append known distinct unknown

/-- All fields of a record that are written are known to its reader. -/
theorem fields?_given {names : List String} (inOrder : fields.map Prod.fst = names)
    (distinct : names.Nodup) : (record (given fields)).fields? names = some (given fields) := by
  subst inOrder
  have kept := keys_given_sublist fields
  apply fields?_record
  · intro member listed
    exact kept.subset (List.mem_map.mpr ⟨member, listed, rfl⟩)
  · exact kept.nodup distinct

/-- A field is found if it is written, and is not found if it is left out. -/
theorem lookup_given {written : Option Json} (distinct : (fields.map Prod.fst).Nodup)
    (listed : (name, written) ∈ fields) : (given fields).lookup name = written := by
  induction fields with
  | nil => cases listed
  | cons field rest ih =>
      obtain ⟨first, firstWritten⟩ := field
      rw [List.map_cons, List.nodup_cons] at distinct
      rcases List.mem_cons.mp listed with same | later
      · cases same
        cases written with
        | some json => exact List.lookup_cons_self
        | none =>
            refine List.lookup_eq_none_iff.mpr fun member kept => ?_
            have inRest := (keys_given_sublist rest).subset (List.mem_map.mpr ⟨member, kept, rfl⟩)
            exact bne_iff_ne.mpr fun same => distinct.1 (same ▸ inRest)
      · have apart : (name == first) = false := by
          refine beq_false_of_ne fun same => distinct.1 ?_
          exact same ▸ List.mem_map.mpr ⟨_, later, rfl⟩
        cases firstWritten with
        | some json =>
            calc List.lookup name ((first, json) :: given rest)
                = List.lookup name (given rest) := by rw [List.lookup_cons, apart]
              _ = written := ih distinct.2 later
        | none => exact ih distinct.2 later

/-- A field that is left out is read as its default. -/
theorem fieldOr_given_absent {α : Type} {default : α} {read? : Json → Option α}
    (distinct : (fields.map Prod.fst).Nodup) (listed : (name, none) ∈ fields) :
    fieldOr (given fields) name default read? = some default := by
  rw [fieldOr, lookup_given distinct listed]

/-- A field that is given is read from its value. -/
theorem fieldOr_given_present {α : Type} (default : α) {json : Json} {value : α}
    {read? : Json → Option α} (distinct : (fields.map Prod.fst).Nodup)
    (listed : (name, some json) ∈ fields) (back : read? json = some value) :
    fieldOr (given fields) name default read? = some value := by
  rw [fieldOr, lookup_given distinct listed]
  exact back

/-- A record is not absent. -/
theorem optional?_record {α : Type} {read? : Json → Option α} {value : α}
    (back : read? (record members) = some value) :
    optional? read? (record members) = some (some value) :=
  congrArg (Option.map some) back

/-- A value that may be absent is restored if it is left out when it is absent. -/
theorem fieldOr_given_optional {α : Type} {write : α → Json} {read? : Json → Option α}
    {value : Option α} (distinct : (fields.map Prod.fst).Nodup)
    (listed : (name, value.map write) ∈ fields)
    (back : ∀ present ∈ value, optional? read? (write present) = some (some present)) :
    fieldOr (given fields) name none (optional? read?) = some value := by
  cases value with
  | none => exact fieldOr_given_absent distinct listed
  | some present => exact fieldOr_given_present none distinct listed (back present rfl)

/-- A list is restored if it is left out when it is empty. -/
theorem fieldOr_given_list {α : Type} {values : List α} {json : Json}
    {read? : Json → Option (List α)} (distinct : (fields.map Prod.fst).Nodup)
    (listed : (name, if values.isEmpty then none else some json) ∈ fields)
    (back : values ≠ [] → read? json = some values) :
    fieldOr (given fields) name [] read? = some values := by
  cases values with
  | nil => exact fieldOr_given_absent distinct listed
  | cons first rest =>
      exact fieldOr_given_present [] distinct listed (back (List.cons_ne_nil first rest))

end Given

end Json

end ConstraintFacets
