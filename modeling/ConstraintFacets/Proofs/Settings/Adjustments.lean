import ConstraintFacets.CommandLine.Run
import ConstraintFacets.Proofs.Snapshot.MemberOrder

/-! # Settings and their adjustments

Settings are read from a text and adjusted step by step: one more group is ignored, another
policy holds, facets that are not admitted are reported or are not. The groups of the steps
add up to those of the text, whatever their order and however often one of them comes, and
the last policy and the last word on reports stand. So two runs of steps come to the same
settings, whatever they start from, if and only if they ignore the same groups and agree on
their last words (`ConstraintFacets.Settings.agreeOn_iff`). Adjusted settings are written
with their groups in increasing order, and are read back
(`ConstraintFacets.Settings.isAdjusted_of_document`).
-/

namespace ConstraintFacets

namespace Json

/-- A document gives a field of a record: an object as a member of that name, an array in the
place of that name among the names of the record. -/
def GivesField (names : List String) (name : String) (json part : Json) : Prop :=
  match json with
  | .object members => (some name, part) ∈ members
  | .array items => (name, part) ∈ names.zip items
  | _ => False

variable {names : List String} {fields : List (String × Json)} {name : String} {json part : Json}

/-- Pairing names with values keeps the order of the names. -/
theorem keys_zip_sublist {κ α : Type} (keys : List κ) (values : List α) :
    ((keys.zip values).map Prod.fst).Sublist keys := by
  induction keys generalizing values with
  | nil => exact .slnil
  | cons key rest ih =>
      cases values with
      | nil => exact List.nil_sublist _
      | cons value others => exact (ih others).cons_cons key

/-- A field is found in a record if and only if the document gives it. -/
theorem lookup_eq_some_iff_givesField (distinct : names.Nodup) (known : name ∈ names)
    (isFields : json.fields? names = some fields) :
    fields.lookup name = some part ↔ json.GivesField names name part := by
  cases json with
  | null | bool | number | string => cases isFields
  | array items =>
      obtain ⟨-, zipped⟩ := Option.ite_none_right_eq_some.mp isFields
      cases zipped
      exact lookup_eq_some_iff_mem ((keys_zip_sublist names items).nodup distinct)
  | object members =>
      obtain ⟨named, isRecord, rfl, distinctFields⟩ := fields?_object_eq_some_iff.mp isFields
      cases isRecord
      rw [lookup_eq_some_iff_mem distinctFields, List.mem_filter, GivesField]
      simp [known]

/-- Only a string is read as a text. -/
theorem text?_eq_some_iff {value : String} : json.text? = some value ↔ json = .text value := by
  cases json <;> simp [text?, text]

/-- Only an array of strings is read as a list of texts. -/
theorem listOf?_text?_eq_some_iff {room : Nat} {texts : List String} :
    listOf? (fun _ => text?) (room + 1) json = some texts ↔ json = .array (texts.map text) := by
  cases json with
  | array items => rw [listOf?, mapM_eq_some_iff fun _ _ => text?_eq_some_iff, Json.array.injEq]
  | _ => simp [listOf?]

end Json

namespace Settings

/-- A step that adjusts settings. -/
inductive Adjustment where
  /-- One more group is ignored. -/
  | ignore (group : String)
  /-- Another policy holds. -/
  | hold (policy : LengthPolicy)
  /-- Facets that are not admitted are reported, or are not. -/
  | report (isReported : Bool)
deriving DecidableEq

/-- The policy that a step sets. -/
def Adjustment.policy? : Adjustment → Option LengthPolicy
  | hold policy => some policy
  | _ => none

/-- What a step says about reports. -/
def Adjustment.report? : Adjustment → Option Bool
  | report isReported => some isReported
  | _ => none

/-- Settings after one step. -/
def adjust (settings : Settings) : Adjustment → Settings
  | .ignore group => settings.ignoring group
  | .hold policy => settings.withPolicy policy
  | .report isReported => settings.reporting isReported

/-- Settings after a run of steps. -/
def adjustAll (settings : Settings) (steps : List Adjustment) : Settings :=
  steps.foldl adjust settings

/-- The policy of the last step that sets one. -/
def lastPolicy? (steps : List Adjustment) : Option LengthPolicy :=
  (steps.filterMap Adjustment.policy?).getLast?

/-- The last word of the steps on reports. -/
def lastReport? (steps : List Adjustment) : Option Bool :=
  (steps.filterMap Adjustment.report?).getLast?

section Steps

variable {settings first second : Settings} {steps others : List Adjustment} {group : String}

/-- The fields determine the settings. -/
theorem eq_of_fields (groups : ∀ group, group ∈ first.ignoredGroups ↔ group ∈ second.ignoredGroups)
    (policies : first.lengthPolicy = second.lengthPolicy)
    (reports : first.reportInapplicable = second.reportInapplicable) : first = second := by
  have sameGroups := NameSet.ext groups
  cases first
  cases second
  cases sameGroups
  cases policies
  cases reports
  rfl

/-- A step adds the group that it ignores, and loses none. -/
theorem mem_ignoredGroups_adjust (step : Adjustment) :
    group ∈ (settings.adjust step).ignoredGroups ↔
      group ∈ settings.ignoredGroups ∨ step = .ignore group := by
  cases step with
  | ignore added =>
      rw [adjust, ignoring, NameSet.mem_insert, or_comm, Adjustment.ignore.injEq, eq_comm]
  | hold | report => simp [adjust, withPolicy, reporting]

/-- Groups add up. -/
theorem mem_ignoredGroups_adjustAll :
    group ∈ (settings.adjustAll steps).ignoredGroups ↔
      group ∈ settings.ignoredGroups ∨ .ignore group ∈ steps := by
  induction steps generalizing settings with
  | nil => simp [adjustAll]
  | cons step rest ih =>
      rw [adjustAll, List.foldl_cons, ← adjustAll, ih, mem_ignoredGroups_adjust, or_assoc,
        List.mem_cons, @eq_comm _ step]

/-- The last of several values is that of the rest, if there is one, or the first one. -/
theorem getLast?_filterMap_cons {α β : Type} (f : α → Option β) (item : α) (rest : List α)
    (default : β) : ((item :: rest).filterMap f).getLast?.getD default =
      (rest.filterMap f).getLast?.getD ((f item).getD default) := by
  rw [List.filterMap_cons]
  cases f item with
  | none => rfl
  | some value =>
      rw [List.getLast?_cons]
      rfl

/-- A field that steps set is in the end what the last of them says. -/
theorem field_adjustAll {α : Type} {field : Settings → α} {word? : Adjustment → Option α}
    (each : ∀ settings step, field (settings.adjust step) = (word? step).getD (field settings)) :
    field (settings.adjustAll steps) =
      (steps.filterMap word?).getLast?.getD (field settings) := by
  induction steps generalizing settings with
  | nil => rfl
  | cons step rest ih =>
      rw [adjustAll, List.foldl_cons, ← adjustAll, ih, each, getLast?_filterMap_cons]

/-- The last policy stands. -/
theorem lengthPolicy_adjustAll :
    (settings.adjustAll steps).lengthPolicy = (lastPolicy? steps).getD settings.lengthPolicy := by
  apply field_adjustAll
  intro settings step
  cases step <;> rfl

/-- The last word on reports stands. -/
theorem reportInapplicable_adjustAll : (settings.adjustAll steps).reportInapplicable =
    (lastReport? steps).getD settings.reportInapplicable := by
  apply field_adjustAll
  intro settings step
  cases step <;> rfl

/-- Two runs of steps ignore the same groups, in any order and any number of times, and their
last words are the same. -/
structure AgreeOn (steps others : List Adjustment) : Prop where
  groups : ∀ group, .ignore group ∈ steps ↔ .ignore group ∈ others
  policy : lastPolicy? steps = lastPolicy? others
  report : lastReport? steps = lastReport? others

/-- Steps that agree lead from the same settings to the same settings. -/
theorem AgreeOn.adjustAll_eq (agree : AgreeOn steps others) (settings : Settings) :
    settings.adjustAll steps = settings.adjustAll others := by
  apply eq_of_fields
  · intro group
    rw [mem_ignoredGroups_adjustAll, mem_ignoredGroups_adjustAll, agree.groups]
  · rw [lengthPolicy_adjustAll, lengthPolicy_adjustAll, agree.policy]
  · rw [reportInapplicable_adjustAll, reportInapplicable_adjustAll, agree.report]

/-- Two values that may be absent are the same if they are the same by all defaults. -/
theorem eq_of_getD_eq {α : Type} {value other : Option α} (apart : ∀ x : α, ∃ y, x ≠ y)
    (same : ∀ default, value.getD default = other.getD default) : value = other := by
  cases value with
  | none =>
      cases other with
      | none => rfl
      | some y =>
          obtain ⟨x, differ⟩ := apart y
          exact absurd (same x).symm differ
  | some x =>
      cases other with
      | none =>
          obtain ⟨y, differ⟩ := apart x
          exact absurd (same y) differ
      | some y => exact congrArg some (same x)

/-- **Runs of steps.** Two runs of steps take all settings to the same ones if and only if they
ignore the same groups and agree on the last policy and on the last word on reports. -/
theorem agreeOn_iff : AgreeOn steps others ↔
    ∀ settings : Settings, settings.adjustAll steps = settings.adjustAll others := by
  refine ⟨AgreeOn.adjustAll_eq, fun same => ⟨fun group => ?_, ?_, ?_⟩⟩
  · have alike := congrArg (fun settings => group ∈ settings.ignoredGroups) (same {})
    have unlisted : ¬ group ∈ ({} : Settings).ignoredGroups := NameSet.not_mem_empty group
    rw [eq_iff_iff, mem_ignoredGroups_adjustAll, mem_ignoredGroups_adjustAll] at alike
    rwa [or_iff_right unlisted, or_iff_right unlisted] at alike
  · apply eq_of_getD_eq
    · intro policy
      cases policy with
      | strict => exact ⟨.stringLike, LengthPolicy.noConfusion⟩
      | stringLike => exact ⟨.strict, LengthPolicy.noConfusion⟩
    · intro policy
      have alike := congrArg lengthPolicy (same { lengthPolicy := policy })
      rwa [lengthPolicy_adjustAll, lengthPolicy_adjustAll] at alike
  · apply eq_of_getD_eq
    · exact fun isReported => ⟨!isReported, (Bool.eq_not_self isReported).mp⟩
    · intro isReported
      have alike := congrArg reportInapplicable (same { reportInapplicable := isReported })
      rwa [reportInapplicable_adjustAll, reportInapplicable_adjustAll] at alike

end Steps

/-- The names of the fields of settings. -/
def fieldNames : List String :=
  ["ignored_validation_groups", "length_bound_policy", "report_inapplicable_facets"]

/-- A document lists some groups as those that are ignored, one after the other. -/
def GivesGroups (json : Json) (groups : List String) : Prop :=
  json.GivesField fieldNames "ignored_validation_groups" (.array (groups.map .text))

/-- A text lists a group as one that is ignored. -/
def ListedIn (text group : String) : Prop :=
  ∃ json groups, Json.parse text = some json ∧ GivesGroups json groups ∧ group ∈ groups

variable {settings start : Settings} {json : Json} {groups : List String} {text : String}

theorem nodup_fieldNames : fieldNames.Nodup := by
  decide

/-- A document gives the groups that its field of groups lists. -/
theorem givesGroups_iff {fields : List (String × Json)} (room : Nat)
    (isFields : json.fields? fieldNames = some fields) : GivesGroups json groups ↔
      ∃ part, fields.lookup "ignored_validation_groups" = some part ∧
        Json.listOf? (fun _ => Json.text?) (room + 1) part = some groups := by
  simp only [Json.listOf?_text?_eq_some_iff, exists_eq_right, GivesGroups]
  exact (Json.lookup_eq_some_iff_givesField nodup_fieldNames List.mem_cons_self isFields).symm

/-- Settings that are read ignore what their document lists. -/
theorem mem_ignoredGroups_of_ofJson? (read : ofJson? json = some settings) {group : String} :
    group ∈ settings.ignoredGroups ↔ ∃ groups, GivesGroups json groups ∧ group ∈ groups := by
  obtain ⟨fields, isFields, read⟩ := Option.bind_eq_some_iff.mp read
  obtain ⟨listed, groupsRead, read⟩ := Option.bind_eq_some_iff.mp read
  obtain ⟨policy, -, read⟩ := Option.bind_eq_some_iff.mp read
  obtain ⟨report, -, read⟩ := Option.bind_eq_some_iff.mp read
  cases read
  simp only [NameSet.mem_ofList, givesGroups_iff 125 isFields]
  unfold Json.fieldOr at groupsRead
  cases given : fields.lookup "ignored_validation_groups" with
  | none =>
      rw [given] at groupsRead
      cases groupsRead
      simp
  | some part =>
      rw [given] at groupsRead
      simp [groupsRead]

/-- The settings of a text ignore the groups that the text lists. -/
theorem mem_ignoredGroups_of_document (accepted : Files.document ofJson? text = .ok start)
    {group : String} : group ∈ start.ignoredGroups ↔ ListedIn text group := by
  unfold Files.document at accepted
  cases parsed : Json.parse text with
  | none =>
      rw [parsed] at accepted
      cases accepted
  | some json =>
      rw [parsed, Option.bind_some] at accepted
      cases read : ofJson? json with
      | none =>
          rw [read] at accepted
          cases accepted
      | some settings =>
          rw [read] at accepted
          cases accepted
          rw [mem_ignoredGroups_of_ofJson? read]
          simp [ListedIn, parsed]

/-- Code points of a name, from the first character on. -/
def codePoints (name : String) : List Nat :=
  name.toList.map Char.toNat

/-- Texts are ordered as their code points are. -/
theorem codePoints_lt {first second : String} (less : first < second) :
    codePoints first < codePoints second :=
  List.map_lt (fun _ _ less => less) less

/-- A set of names lists them with increasing code points. -/
theorem increasing_codePoints (names : NameSet) :
    (names.names.map codePoints).Pairwise (· < ·) :=
  List.pairwise_map.mpr (names.increasing.imp codePoints_lt)

/-- The fields of settings, as they are written. -/
def fields (settings : Settings) : List (String × Json) :=
  [("ignored_validation_groups", .array (settings.ignoredGroups.names.map .text)),
   ("length_bound_policy", .text settings.lengthPolicy.name),
   ("report_inapplicable_facets", .bool settings.reportInapplicable)]

/-- Written settings have all their fields. -/
theorem fields?_toJson (settings : Settings) :
    settings.toJson.fields? fieldNames = some settings.fields :=
  Json.fields?_record (fun member listed => List.mem_map.mpr ⟨member, listed, rfl⟩)
    nodup_fieldNames

/-- The groups that are written are read back in the same order. -/
theorem listOf?_groups (settings : Settings) (room : Nat) : Json.listOf? (fun _ => Json.text?)
    (room + 1) (.array (settings.ignoredGroups.names.map .text)) =
      some settings.ignoredGroups.names :=
  Json.listOf?_text?_eq_some_iff.mpr rfl

/-- Written settings give the groups that they ignore, and no others. -/
theorem givesGroups_toJson_iff :
    GivesGroups settings.toJson groups ↔ groups = settings.ignoredGroups.names := by
  rw [givesGroups_iff 0 (fields?_toJson settings), fields, List.lookup_cons_self]
  simp [listOf?_groups, eq_comm]

theorem ofList_names (names : NameSet) : NameSet.ofList names.names = names :=
  NameSet.ext fun _ => NameSet.mem_ofList

/-- Settings are read back from their JSON form. -/
theorem ofJson?_toJson (settings : Settings) : ofJson? settings.toJson = some settings := by
  have groupsRead : Json.fieldOr settings.fields "ignored_validation_groups" []
      (Json.listOf? (fun _ => Json.text?) 126) = some settings.ignoredGroups.names :=
    settings.listOf?_groups 125
  have policyRead : Json.fieldOr settings.fields "length_bound_policy" .strict
      (fun policy => (Json.choice? .inPlace 126 policy).bind LengthPolicy.ofName?) =
        some settings.lengthPolicy := by
    change LengthPolicy.ofName? settings.lengthPolicy.name = some settings.lengthPolicy
    cases settings.lengthPolicy <;> rfl
  have reportRead : Json.fieldOr settings.fields "report_inapplicable_facets" true Json.bool? =
      some settings.reportInapplicable := rfl
  have isFields := settings.fields?_toJson
  rw [fieldNames] at isFields
  rw [ofJson?, Json.nestingLimit, read?]
  simp only [isFields, groupsRead, policyRead, reportRead, ofList_names, Option.bind_eq_bind,
    Option.bind_some]

/-- Settings are those of a text, adjusted by some steps. They list their groups in one way, in
strictly increasing order of code points, and are read back. They ignore the groups that the
text lists or a step adds, and the last words of the steps stand before those of the text. -/
structure IsAdjusted (text : String) (start : Settings) (steps : List Adjustment)
    (settings : Settings) : Prop where
  listed : ∃ groups, (∀ others, GivesGroups settings.toJson others ↔ others = groups) ∧
    (groups.map codePoints).Pairwise (· < ·) ∧
    ∀ group, group ∈ groups ↔ settings.filter.isIgnored group
  readsBack : ReadsBack toJson ofJson? settings
  isIgnored_iff : ∀ group,
    settings.filter.isIgnored group ↔ ListedIn text group ∨ .ignore group ∈ steps
  lengthPolicy_eq : settings.lengthPolicy = (lastPolicy? steps).getD start.lengthPolicy
  reportInapplicable_eq :
    settings.reportInapplicable = (lastReport? steps).getD start.reportInapplicable

/-- Two settings collect the same constraints and restrict types in the same way. -/
structure ActAlike (first second : Settings) : Prop where
  constraints : ∀ declaration : Declaration,
    declaration.constraints first.filter = declaration.constraints second.filter
  decorate : ∀ (base : SchemaType) (declaration : Declaration),
    base.decorate declaration first = base.decorate declaration second

theorem ActAlike.refl (settings : Settings) : ActAlike settings settings :=
  ⟨fun _ => rfl, fun _ _ => rfl⟩

/-- The filter of the settings ignores the groups in the set. -/
theorem isIgnored_iff {group : String} :
    settings.filter.isIgnored group ↔ group ∈ settings.ignoredGroups :=
  decide_eq_true_iff

/-- Steps from settings with the groups of a text lead to adjusted settings. -/
theorem isAdjusted_of_mem {steps : List Adjustment}
    (lists : ∀ group, group ∈ start.ignoredGroups ↔ ListedIn text group) :
    IsAdjusted text start steps (start.adjustAll steps) where
  listed := ⟨_, fun _ => givesGroups_toJson_iff, increasing_codePoints _,
    fun _ => isIgnored_iff.symm⟩
  readsBack := readsBack_of_read? (ofJson?_toJson _)
  isIgnored_iff group := by
    rw [isIgnored_iff, mem_ignoredGroups_adjustAll, lists]
  lengthPolicy_eq := lengthPolicy_adjustAll
  reportInapplicable_eq := reportInapplicable_adjustAll

/-- **Adjusted settings.** Settings that are read from a text and adjusted by steps list their
groups in increasing order and are read back, and they ignore the groups of the text and of
the steps and no others. Further runs of steps that add the same groups and agree on their
last words take them to the same settings, and so to the same results. -/
theorem isAdjusted_of_document (accepted : Files.document ofJson? text = .ok start)
    (steps : List Adjustment) :
    IsAdjusted text start steps (start.adjustAll steps) ∧
      ∀ first second, AgreeOn first second →
        (start.adjustAll steps).adjustAll first = (start.adjustAll steps).adjustAll second ∧
        ActAlike ((start.adjustAll steps).adjustAll first)
          ((start.adjustAll steps).adjustAll second) := by
  refine ⟨isAdjusted_of_mem fun _ => mem_ignoredGroups_of_document accepted, ?_⟩
  intro first second agree
  have same := agree.adjustAll_eq (start.adjustAll steps)
  exact ⟨same, same ▸ ActAlike.refl _⟩

/-- Settings with groups out of order, one of them twice, and without a word on reports. -/
def releaseSettings : Json :=
  .record
    [("length_bound_policy", .text "string_like"),
     ("ignored_validation_groups", .array [.text "b", .text "a", .text "b"])]

/-- Ignoring a group again, or in another order, comes to the same settings. -/
theorem isAdjusted_releaseSettings :
    ∃ start, Files.document ofJson? releaseSettings.compact = .ok start ∧
      (start.adjustAll [.ignore "c", .report false, .ignore "a"]).ignoredGroups.names =
        ["a", "b", "c"] ∧
      IsAdjusted releaseSettings.compact start [.ignore "c", .report false, .ignore "a"]
        (start.adjustAll [.ignore "c", .report false, .ignore "a"]) ∧
      start.adjustAll [.ignore "c", .report false, .ignore "a"] =
        start.adjustAll [.report true, .ignore "a", .ignore "c", .report false, .ignore "c"] := by
  have accepted : Files.document ofJson? releaseSettings.compact = .ok
      { ignoredGroups := .ofList ["b", "a", "b"], lengthPolicy := .stringLike } := by
    rw [Files.document, Json.parse_compact]
    rfl
  have agree : AgreeOn [.ignore "c", .report false, .ignore "a"]
      [.report true, .ignore "a", .ignore "c", .report false, .ignore "c"] := by
    refine ⟨fun group => ?_, rfl, rfl⟩
    simp [or_comm]
  have adjusted := isAdjusted_of_document accepted [.ignore "c", .report false, .ignore "a"]
  have again := isAdjusted_of_document accepted []
  exact ⟨_, accepted, rfl, adjusted.1, (again.2 _ _ agree).1⟩

end Settings

/-- The groups given on a command line are ignored one by one. -/
theorem Settings.foldl_ignoring (settings : Settings) (groups : List String) :
    groups.foldl Settings.ignoring settings = settings.adjustAll (groups.map .ignore) := by
  rw [adjustAll, List.foldl_map]
  rfl

/-- Lists of the same groups are steps that agree. -/
theorem Settings.agreeOn_map_ignore {groups others : List String}
    (same : ∀ group, group ∈ groups ↔ group ∈ others) :
    AgreeOn (groups.map .ignore) (others.map .ignore) where
  groups group := by simp [same]
  policy := by simp [lastPolicy?, List.filterMap_map, Function.comp_def, Adjustment.policy?]
  report := by simp [lastReport?, List.filterMap_map, Function.comp_def, Adjustment.report?]

/-- A run that lists constraints depends on the set of the groups that it is to ignore, not on
their order, nor on how often one of them is given. -/
theorem runConstraints_congr {groups others : List String}
    (same : ∀ group, group ∈ groups ↔ group ∈ others) (files : Files) (settings : Settings)
    (path : String) (required json : Bool) :
    runConstraints files settings path groups required json =
      runConstraints files settings path others required json := by
  unfold runConstraints
  rw [Settings.foldl_ignoring, Settings.foldl_ignoring,
    (Settings.agreeOn_map_ignore same).adjustAll_eq]

end ConstraintFacets
