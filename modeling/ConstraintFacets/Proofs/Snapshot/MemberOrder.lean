import ConstraintFacets.Proofs.Snapshot.Records
import Mathlib.Data.List.Forall2
import Mathlib.Data.List.Perm.Basic

/-! # The order of members

A document is reordered by permuting the members of its objects, at any level
(`ConstraintFacets.Json.Reordered`). A reordered document may be held back just if the
document may (`ConstraintFacets.Json.Reordered.isSound_eq`). The fields of a record are found
again under their names, each one reordered (`ConstraintFacets.Json.Reordered.fields?`), and
what is read item by item or field by field agrees on both sides if the readings of the
parts do. Two readings agree if both fail or both succeed with related results.
-/

namespace ConstraintFacets

section Agreement

variable {α β γ δ : Type} {R : α → β → Prop} {S : γ → δ → Prop}

/-- Readings that agree go on to agree if they do so on related results. -/
theorem rel_bind {first : Option α} {second : Option β} {f : α → Option γ} {g : β → Option δ}
    (related : Option.Rel R first second)
    (next : ∀ x ∈ first, ∀ y ∈ second, R x y → Option.Rel S (f x) (g y)) :
    Option.Rel S (first.bind f) (second.bind g) := by
  cases related with
  | some related => exact next _ rfl _ rfl related
  | none => exact .none

/-- Readings that agree still do when related results are mapped to related ones. -/
theorem rel_map {first : Option α} {second : Option β} {f : α → γ} {g : β → δ}
    (related : Option.Rel R first second)
    (next : ∀ x ∈ first, ∀ y ∈ second, R x y → S (f x) (g y)) :
    Option.Rel S (first.map f) (second.map g) := by
  cases related with
  | some related => exact .some (next _ rfl _ rfl related)
  | none => exact .none

/-- A reading that is common to both sides is followed by readings that agree. -/
theorem rel_bind_self (first : Option α) {f : α → Option γ} {g : α → Option δ}
    (next : ∀ x ∈ first, Option.Rel S (f x) (g x)) :
    Option.Rel S (first.bind f) (first.bind g) := by
  cases first with
  | some x => exact next x rfl
  | none => exact .none

/-- One reading that is mapped in two related ways agrees with itself. -/
theorem rel_map_self (first : Option α) {f : α → γ} {g : α → δ} (next : ∀ x, S (f x) (g x)) :
    Option.Rel S (first.map f) (first.map g) := by
  cases first with
  | some x => exact .some (next x)
  | none => exact .none

/-- Agreement composes as the relations do. -/
theorem rel_trans {T : α → γ → Prop} {S : β → γ → Prop} {first : Option α} {second : Option β}
    {third : Option γ} (left : Option.Rel R first second) (right : Option.Rel S second third)
    (compose : ∀ x y z, R x y → S y z → T x z) : Option.Rel T first third := by
  cases left with
  | none => cases right; exact .none
  | some left => cases right with | some right => exact .some (compose _ _ _ left right)

theorem rel_eq_iff {first second : Option α} : Option.Rel Eq first second ↔ first = second := by
  constructor
  · rintro (same | _)
    · exact congrArg some same
    · rfl
  · rintro rfl
    cases first with
    | none => exact .none
    | some value => exact .some rfl

/-- Lists are read alike if their items are. -/
theorem rel_mapM {items : List α} {others : List β} {f : α → Option γ} {g : β → Option δ}
    (each : List.Forall₂ (fun x y => Option.Rel S (f x) (g y)) items others) :
    Option.Rel (List.Forall₂ S) (items.mapM f) (others.mapM g) := by
  induction each with
  | nil => exact .some .nil
  | cons first rest ih =>
      rw [List.mapM_cons, List.mapM_cons]
      refine rel_bind first fun _ _ _ _ head => rel_bind ih fun _ _ _ _ tail => ?_
      exact .some (.cons head tail)

/-- A permuted list is read as a permutation of what the list is read as. -/
theorem rel_mapM_of_perm {items others : List α} (permuted : items.Perm others)
    (f : α → Option γ) : Option.Rel List.Perm (items.mapM f) (others.mapM f) := by
  induction permuted with
  | nil => exact .some (.refl _)
  | cons item rest ih =>
      rw [List.mapM_cons, List.mapM_cons]
      refine rel_bind_self (f item) fun x _ => rel_bind ih fun _ _ _ _ tail => ?_
      exact .some (tail.cons x)
  | swap first second rest =>
      simp only [List.mapM_cons]
      cases f first <;> cases f second <;> cases rest.mapM f <;>
        first | exact .none | exact .some (.swap _ _ _)
  | trans _ _ left right => exact rel_trans left right fun _ _ _ => .trans

end Agreement

/-- Two entries have the same name and related values. -/
def SameName {κ α β : Type} (R : α → β → Prop) (entry : κ × α) (other : κ × β) : Prop :=
  entry.1 = other.1 ∧ R entry.2 other.2

section Tables

variable {κ α β : Type} {R : α → β → Prop}

/-- Entries with the same names and related values are related. -/
theorem forall₂_sameName {entries : List (κ × α)} {others : List (κ × β)}
    (names : entries.map Prod.fst = others.map Prod.fst)
    (values : List.Forall₂ R (entries.map Prod.snd) (others.map Prod.snd)) :
    List.Forall₂ (SameName R) entries others := by
  induction entries generalizing others with
  | nil =>
      rw [List.map_eq_nil_iff.mp names.symm]
      exact .nil
  | cons entry rest ih =>
      cases others with
      | nil => exact absurd names (List.cons_ne_nil _ _)
      | cons other others =>
          rw [List.map_cons, List.map_cons, List.cons.injEq] at names
          rw [List.map_cons, List.map_cons, List.forall₂_cons] at values
          exact .cons ⟨names.1, values.1⟩ (ih names.2 values.2)

/-- Related values are related as entries under the same names. -/
theorem forall₂_zip {items : List α} {others : List β} (each : List.Forall₂ R items others)
    (names : List κ) : List.Forall₂ (SameName R) (names.zip items) (names.zip others) := by
  induction each generalizing names with
  | nil => simp
  | cons first _ ih =>
      cases names with
      | nil => exact .nil
      | cons name names => exact .cons ⟨rfl, first⟩ (ih names)

/-- Related entries have the same names. -/
theorem keys_eq_of_sameName {entries : List (κ × α)} {others : List (κ × β)}
    (each : List.Forall₂ (SameName R) entries others) :
    entries.map Prod.fst = others.map Prod.fst := by
  induction each with
  | nil => rfl
  | cons first _ ih => rw [List.map_cons, List.map_cons, first.1, ih]

/-- Related values are found among related entries. -/
theorem rel_lookup [BEq κ] {entries : List (κ × α)} {others : List (κ × β)}
    (each : List.Forall₂ (SameName R) entries others) (key : κ) :
    Option.Rel R (entries.lookup key) (others.lookup key) := by
  induction each with
  | nil => exact .none
  | @cons entry other _ _ first _ ih =>
      rw [List.lookup_cons, List.lookup_cons, ← first.1]
      split
      · exact .some first.2
      · exact ih

section Lookup

variable [BEq κ] [LawfulBEq κ]

/-- If the names are distinct, looking up finds whatever entry there is. -/
theorem lookup_eq_some_iff_mem {entries : List (κ × α)}
    (distinct : (entries.map Prod.fst).Nodup) {key : κ} {value : α} :
    entries.lookup key = some value ↔ (key, value) ∈ entries := by
  induction entries with
  | nil => simp
  | cons entry rest ih =>
      obtain ⟨name, first⟩ := entry
      rw [List.map_cons, List.nodup_cons] at distinct
      by_cases same : key = name
      · subst same
        have apart : (key, value) ∉ rest := fun later =>
          distinct.1 (List.mem_map.mpr ⟨_, later, rfl⟩)
        simp [apart, eq_comm]
      · have differ : (key == name) = false := beq_false_of_ne same
        simp [List.lookup_cons, differ, same, ih distinct.2]

/-- If the names are distinct, their order does not matter for looking up. -/
theorem lookup_eq_of_perm {entries others : List (κ × α)} (permuted : entries.Perm others)
    (distinct : (entries.map Prod.fst).Nodup) (key : κ) :
    entries.lookup key = others.lookup key := by
  have distinctOthers := (permuted.map Prod.fst).nodup_iff.mp distinct
  apply Option.ext
  intro value
  rw [lookup_eq_some_iff_mem distinct, lookup_eq_some_iff_mem distinctOthers, permuted.mem_iff]

end Lookup

/-- Two tables have the same names, in some order each, and related values under them. -/
def SameEntries (R : α → β → Prop) (entries : List (κ × α)) (others : List (κ × β)) : Prop :=
  ∃ shuffled, entries.Perm shuffled ∧ List.Forall₂ (SameName R) shuffled others

namespace SameEntries

variable {entries : List (κ × α)} {others : List (κ × β)}

theorem keys_perm (same : SameEntries R entries others) :
    (entries.map Prod.fst).Perm (others.map Prod.fst) := by
  obtain ⟨shuffled, permuted, each⟩ := same
  rw [← keys_eq_of_sameName each]
  exact permuted.map Prod.fst

theorem length_eq (same : SameEntries R entries others) : entries.length = others.length := by
  simpa using same.keys_perm.length_eq

theorem sameName {entry : κ × α} {other : κ × β} (same : SameEntries R [entry] [other]) :
    SameName R entry other := by
  obtain ⟨shuffled, permuted, each⟩ := same
  rw [List.singleton_perm] at permuted
  subst permuted
  exact (List.forall₂_cons.mp each).1

/-- The same entries are kept where names decide which. -/
theorem filter (same : SameEntries R entries others) (keep : κ → Bool) :
    SameEntries R (entries.filter fun entry => keep entry.1)
      (others.filter fun other => keep other.1) := by
  obtain ⟨shuffled, permuted, each⟩ := same
  refine ⟨_, permuted.filter _, List.rel_filter (fun entry other sameName => ?_) each⟩
  exact iff_of_eq (congrArg (fun name => keep name = true) sameName.1)

/-- A test that treats related entries alike holds of all on both sides or on none. -/
theorem all_eq (same : SameEntries R entries others) {f : κ × α → Bool} {g : κ × β → Bool}
    (each : ∀ entry other, SameName R entry other → f entry = g other) :
    entries.all f = others.all g := by
  obtain ⟨shuffled, permuted, sameNames⟩ := same
  rw [permuted.all_eq]
  clear permuted
  induction sameNames with
  | nil => rfl
  | cons first _ ih => rw [List.all_cons, List.all_cons, each _ _ first, ih]

/-- The same entries are read as the same entries. -/
theorem mapM {κ' γ δ : Type} {S : γ → δ → Prop} {f : κ × α → Option (κ' × γ)}
    {g : κ × β → Option (κ' × δ)} (same : SameEntries R entries others)
    (each : ∀ entry ∈ entries, ∀ other, SameName R entry other →
      Option.Rel (SameName S) (f entry) (g other)) :
    Option.Rel (SameEntries S) (entries.mapM f) (others.mapM g) := by
  obtain ⟨shuffled, permuted, sameNames⟩ := same
  have listed : ∀ entry ∈ shuffled, entry ∈ entries := fun _ inside => permuted.mem_iff.mpr inside
  have replaced := (List.forall₂_and_left _ _ |>.mpr ⟨listed, sameNames⟩).imp
    fun entry other pair => each entry pair.1 other pair.2
  exact rel_trans (rel_mapM_of_perm permuted f) (rel_mapM replaced)
    fun _ between _ left right => ⟨between, left, right⟩

/-- If the names are distinct, related values are found on both sides. -/
theorem lookup [BEq κ] [LawfulBEq κ] (same : SameEntries R entries others)
    (distinct : (entries.map Prod.fst).Nodup) (key : κ) :
    Option.Rel R (entries.lookup key) (others.lookup key) := by
  obtain ⟨shuffled, permuted, each⟩ := same
  rw [lookup_eq_of_perm permuted distinct]
  exact rel_lookup each key

end SameEntries

end Tables

namespace Json

/-- A document is obtained from another one by permuting the members of its objects, at
any level. -/
inductive Reordered : Json → Json → Prop
  | null : Reordered .null .null
  | bool (value : Bool) : Reordered (.bool value) (.bool value)
  | number (value : JsonNumber) : Reordered (.number value) (.number value)
  | string (text : Option String) : Reordered (.string text) (.string text)
  | array {items others : List Json} (each : List.Forall₂ Reordered items others) :
    Reordered (.array items) (.array others)
  | object {members shuffled others : List (Option String × Json)}
    (permuted : members.Perm shuffled) (names : shuffled.map Prod.fst = others.map Prod.fst)
    (values : List.Forall₂ Reordered (shuffled.map Prod.snd) (others.map Prod.snd)) :
    Reordered (.object members) (.object others)

/-- A member with the text that its name denotes. -/
def named? (member : Option String × Json) : Option (String × Json) :=
  member.1.map fun name => (name, member.2)

theorem fields?_object (names : List String) (members : List (Option String × Json)) :
    (object members).fields? names = (members.mapM named?).bind fun named =>
      if ((named.filter fun member => names.contains member.1).map Prod.fst).Nodup then
        some (named.filter fun member => names.contains member.1)
      else none := rfl

/-- The fields of a record are found on both sides, with related values. -/
theorem rel_fields?_object {R : Json → Json → Prop} {members others : List (Option String × Json)}
    (same : SameEntries R members others) (names : List String) :
    Option.Rel (fun fields otherFields =>
        ∀ name, Option.Rel R (fields.lookup name) (otherFields.lookup name))
      ((object members).fields? names) ((object others).fields? names) := by
  have named : Option.Rel (SameEntries R) (members.mapM named?) (others.mapM named?) := by
    apply same.mapM
    rintro ⟨name, value⟩ _ ⟨_, otherValue⟩ ⟨rfl, related⟩
    cases name with
    | none => exact .none
    | some name => exact .some ⟨rfl, related⟩
  rw [fields?_object, fields?_object]
  refine rel_bind named fun _ _ _ _ all => ?_
  have known := all.filter names.contains
  simp only [known.keys_perm.nodup_iff]
  split
  · rename_i distinct
    exact .some fun name => known.lookup (known.keys_perm.nodup_iff.mpr distinct) name
  · exact .none

section Fields

variable {names : List String} {fields others : List (String × Json)} {name : String} {part : Json}

/-- What is found is the value of an entry. -/
theorem mem_of_lookup {κ α : Type} [BEq κ] [LawfulBEq κ] {entries : List (κ × α)} {key : κ}
    {value : α} (found : entries.lookup key = some value) : (key, value) ∈ entries := by
  obtain ⟨before, after, rfl, -⟩ := List.lookup_eq_some_iff.mp found
  simp

/-- Members are named just if each of their names denotes a text. -/
theorem mapM_named?_eq_some_iff {members : List (Option String × Json)}
    {named : List (String × Json)} : members.mapM named? = some named ↔
      members = named.map fun member => (some member.1, member.2) := by
  apply mapM_eq_some_iff
  intro member field
  obtain ⟨name, value⟩ := member
  cases name <;> simp [named?, Prod.ext_iff]

/-- The names of the members of an object that is read as a record denote texts, and no
field is given twice. -/
theorem fields?_object_eq_some_iff {members : List (Option String × Json)} :
    (object members).fields? names = some fields ↔
      ∃ named, object members = record named ∧
        fields = named.filter (fun member => names.contains member.1) ∧
        (fields.map Prod.fst).Nodup := by
  rw [fields?_object, Option.bind_eq_some_iff]
  refine exists_congr fun named => ?_
  rw [mapM_named?_eq_some_iff, record, Json.object.injEq, Option.ite_none_right_eq_some,
    Option.some.injEq]
  constructor
  · rintro ⟨isRecord, distinct, rfl⟩
    exact ⟨isRecord, rfl, distinct⟩
  · rintro ⟨isRecord, rfl, distinct⟩
    exact ⟨isRecord, distinct, rfl⟩

/-- A field of an object is a member. -/
theorem mem_of_lookup_fields?_object {members : List (Option String × Json)}
    (isFields : (object members).fields? names = some fields)
    (found : fields.lookup name = some part) : (some name, part) ∈ members := by
  obtain ⟨named, isRecord, rfl, -⟩ := fields?_object_eq_some_iff.mp isFields
  cases isRecord
  exact List.mem_map.mpr ⟨_, (List.mem_filter.mp (mem_of_lookup found)).1, rfl⟩

/-- A field of an array stands in the place of its name. -/
theorem mem_of_lookup_fields?_array {items : List Json}
    (isFields : (array items).fields? names = some fields)
    (found : fields.lookup name = some part) : (name, part) ∈ names.zip items := by
  obtain ⟨-, zipped⟩ := Option.ite_none_right_eq_some.mp isFields
  cases zipped
  exact mem_of_lookup found

/-- Related fields are read alike if what they are read as agrees, the default included. -/
theorem rel_fieldOr {α β : Type} {R : Json → Json → Prop} {S : α → β → Prop} {default : α}
    {otherDefault : β} {f : Json → Option α} {g : Json → Option β}
    (found : Option.Rel R (fields.lookup name) (others.lookup name))
    (defaults : S default otherDefault)
    (each : ∀ part, fields.lookup name = some part → ∀ other, R part other →
      Option.Rel S (f part) (g other)) :
    Option.Rel S (fieldOr fields name default f) (fieldOr others name otherDefault g) := by
  unfold fieldOr
  generalize others.lookup name = otherFound at found ⊢
  cases inFields : fields.lookup name with
  | none => rw [inFields] at found; cases found; exact .some defaults
  | some part =>
      rw [inFields] at found
      cases found with | some related => exact each part inFields _ related

end Fields

namespace Reordered

variable {first second : Json}

/-- Permuting members and reordering their values leaves the same entries. -/
theorem sameEntries {members shuffled others : List (Option String × Json)}
    (permuted : members.Perm shuffled) (names : shuffled.map Prod.fst = others.map Prod.fst)
    (values : List.Forall₂ Reordered (shuffled.map Prod.snd) (others.map Prod.snd)) :
    SameEntries Reordered members others :=
  ⟨shuffled, permuted, forall₂_sameName names values⟩

/-- A document is one of its reordered documents. -/
theorem refl (json : Json) : json.Reordered json := by
  match json with
  | .null => exact .null
  | .bool value => exact .bool value
  | .number value => exact .number value
  | .string text => exact .string text
  | .array items => exact .array (List.forall₂_same.mpr fun item _ => refl item)
  | .object members =>
      refine .object (.refl members) rfl (List.forall₂_same.mpr fun value listed => ?_)
      obtain ⟨member, isMember, rfl⟩ := List.mem_map.mp listed
      exact refl member.2
termination_by json.depth
decreasing_by
  · exact Nat.lt_succ_of_le (depth_le_of_mem_items ‹_›)
  · exact Nat.lt_succ_of_le (depth_le_of_mem_members isMember)

/-- A reordered document may be held back just if the document may. -/
theorem isSound_eq (reordered : first.Reordered second) (room : Nat) :
    first.isSound room = second.isSound room := by
  induction room generalizing first second with
  | zero => cases reordered <;> rfl
  | succ room ih =>
      cases reordered with
      | null | bool | number | string => rfl
      | @array items others each =>
          rw [isSound, isSound]
          induction each with
          | nil => rfl
          | cons first _ rest => rw [List.all_cons, List.all_cons, ih first, rest]
      | object permuted names values =>
          rw [isSound, isSound]
          apply (sameEntries permuted names values).all_eq
          rintro ⟨name, value⟩ ⟨_, other⟩ ⟨rfl, related⟩
          rw [ih related]

/-- Two members that change places. -/
theorem swap {firstName secondName : Option String} {firstValue secondValue firstOther secondOther :
    Json} (firstReordered : firstValue.Reordered firstOther)
    (secondReordered : secondValue.Reordered secondOther) :
    (Json.object [(firstName, firstValue), (secondName, secondValue)]).Reordered
      (.object [(secondName, secondOther), (firstName, firstOther)]) :=
  .object (.swap _ _ _) rfl (.cons secondReordered (.cons firstReordered .nil))

theorem text?_eq (reordered : first.Reordered second) : first.text? = second.text? := by
  cases reordered <;> rfl

theorem bool?_eq (reordered : first.Reordered second) : first.bool? = second.bool? := by
  cases reordered <;> rfl

theorem int?_eq (reordered : first.Reordered second) : first.int? = second.int? := by
  cases reordered <;> rfl

/-- A reordered document is read as the same form, from either origin. -/
theorem tag?_eq {α : Type} (reordered : first.Reordered second) (origin : Origin) (forms : List α)
    (name : α → String) : first.tag? origin forms name = second.tag? origin forms name := by
  cases reordered <;> rfl

/-- A reordered document is read as the same choice, from either origin. -/
theorem choice?_eq (reordered : first.Reordered second) (origin : Origin) (room : Nat) :
    choice? origin room first = choice? origin room second := by
  cases reordered with
  | null | bool | number | string => rfl
  | array each => cases room <;> rfl
  | @object members shuffled others permuted names values =>
      have sameLength := (sameEntries permuted names values).length_eq
      match members, others, room with
      | _, _, 0 => simp [choice?]
      | [], [], _ + 1 => rfl
      | [(name, value)], [(otherName, other)], _ + 1 =>
          rw [List.singleton_perm] at permuted
          subst permuted
          obtain ⟨rfl, -⟩ := List.cons.inj names
          cases List.forall₂_cons.mp values |>.1 with
          | null | bool | number | string | array => rfl
          | @object inner _ innerOthers innerPermuted innerNames innerValues =>
              have innerLength := (sameEntries innerPermuted innerNames innerValues).length_eq
              cases inner <;> cases innerOthers <;> first | rfl | cases innerLength
      | _ :: _ :: _, _ :: _ :: _, _ + 1 => simp [choice?]

/-- An object with the same entries is a reordered one. -/
theorem of_sameEntries {members others : List (Option String × Json)}
    (same : SameEntries Reordered members others) :
    (Json.object members).Reordered (.object others) := by
  obtain ⟨shuffled, permuted, each⟩ := same
  refine .object permuted (keys_eq_of_sameName each) ?_
  rw [List.forall₂_map_left_iff, List.forall₂_map_right_iff]
  exact each.imp fun _ _ sameName => sameName.2

/-- A value that may be absent is absent on both sides or on none. -/
theorem rel_optional? {α β : Type} {S : α → β → Prop} {f : Json → Option α} {g : Json → Option β}
    (reordered : first.Reordered second) (related : Option.Rel S (f first) (g second)) :
    Option.Rel (Option.Rel S) (optional? f first) (optional? g second) := by
  cases reordered with
  | null => exact .some .none
  | _ => exact rel_map related fun _ _ _ _ => .some

/-- The items of an array are read one after the other, whatever order their members have. -/
theorem rel_listOf? {α β : Type} {S : α → β → Prop} {f : Nat → Json → Option α}
    {g : Nat → Json → Option β} {room : Nat} (reordered : first.Reordered second)
    (each : ∀ inner, room = inner + 1 → ∀ items, first = Json.array items → ∀ item ∈ items,
      ∀ other, item.Reordered other → Option.Rel S (f inner item) (g inner other)) :
    Option.Rel (List.Forall₂ S) (listOf? f room first) (listOf? g room second) := by
  cases reordered with
  | @array items others paired =>
      cases room with
      | zero => exact .none
      | succ room =>
          have listed := (List.forall₂_and_left _ _).mpr ⟨fun item inside => inside, paired⟩
          exact rel_mapM (listed.imp fun item other pair =>
            each room rfl items rfl item pair.1 other pair.2)
  | _ => cases room <;> exact .none

/-- A value that may be absent is read alike if the value is. -/
theorem optional?_eq {α : Type} {f : Json → Option α} (reordered : first.Reordered second)
    (same : f first = f second) : optional? f first = optional? f second := by
  cases reordered with
  | null => rfl
  | _ => exact congrArg (Option.map some) same

/-- A list is read alike if its items are. -/
theorem listOf?_eq {α : Type} {f : Nat → Json → Option α} {room : Nat}
    (reordered : first.Reordered second)
    (each : ∀ inner < room, ∀ item other : Json, item.Reordered other →
      f inner item = f inner other) : listOf? f room first = listOf? f room second := by
  have related : Option.Rel (List.Forall₂ Eq) (listOf? f room first) (listOf? f room second) :=
    reordered.rel_listOf? fun inner isNext _ _ item _ other pair =>
      rel_eq_iff.mpr (each inner (by omega) item other pair)
  rwa [List.forall₂_eq_eq_eq, rel_eq_iff] at related

/-- The fields of a record are found again under their names. -/
theorem fields? (reordered : first.Reordered second) (names : List String) :
    Option.Rel (fun fields otherFields =>
        ∀ name, Option.Rel Reordered (fields.lookup name) (otherFields.lookup name))
      (first.fields? names) (second.fields? names) := by
  cases reordered with
  | null | bool | number | string => exact .none
  | @array items others each =>
      simp only [Json.fields?, each.length_eq]
      split
      · exact .some fun name => rel_lookup (forall₂_zip each names) name
      · exact .none
  | object permuted names' values =>
      exact rel_fields?_object (sameEntries permuted names' values) names

/-- A field is read alike, or both sides fall back to its default. -/
theorem fieldOr_eq {α : Type} {fields others : List (String × Json)} {name : String}
    {f : Json → Option α} (default : α)
    (found : Option.Rel Reordered (fields.lookup name) (others.lookup name))
    (each : ∀ part other : Json, part.Reordered other → f part = f other) :
    fieldOr fields name default f = fieldOr others name default f :=
  rel_eq_iff.mp (rel_fieldOr found rfl fun part _ other related =>
    rel_eq_iff.mpr (each part other related))

end Reordered

end Json

end ConstraintFacets
