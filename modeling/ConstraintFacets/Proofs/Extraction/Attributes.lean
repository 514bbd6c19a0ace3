import ConstraintFacets.Constraint.Reading

/-! # What the standard annotations ask of their attributes

Every kind of constraint asks some attributes of its annotation, in a fixed
order (`ConstraintFacets.ConstraintKind.attributes`). An attribute is broken if
it is missing though it is mandatory, or if its value is not of the form that is
asked. Reading an annotation fails if and only if an attribute is broken, and
the first broken one is reported
(`ConstraintFacets.ConstraintKind.errorOf?_read`); otherwise the constraint
carries what the attributes hold, with defaults for those that are not given
(`ConstraintFacets.ConstraintKind.read_eq_ok_iff`).
-/

namespace ConstraintFacets

/-- The form that the value of an attribute has to have. -/
inductive AttributeForm where
  | word
  | shortWord
  | flag
  | text
  | decimal
deriving DecidableEq

/-- What is wrong with a value that has to have a form. -/
def AttributeForm.fault? : AttributeForm → AnnotationValue → Option AnnotationFault
  | word, .int _ => none
  | word, _ => some .notInteger
  | shortWord, .int value =>
    if Int32.minValue.toInt ≤ value.toInt ∧ value.toInt ≤ Int32.maxValue.toInt then none
    else some .integerOutOfRange
  | shortWord, _ => some .notInteger
  | flag, .bool _ => none
  | flag, _ => some .notBoolean
  | text, .string _ => none
  | text, _ => some .notString
  | decimal, .string value =>
    if DecimalLiteral.isLiteral value.toList then none else some .notDecimal
  | decimal, _ => some .notString

/-- What is asked of one attribute. -/
structure AttributeRule where
  name : String
  form : AttributeForm
  isMandatory : Bool

namespace AttributeRule

/-- What is wrong with an attribute of an annotation. -/
def fault? (rule : AttributeRule) (use : AnnotationUse) : Option AnnotationFault :=
  match use.value? rule.name with
  | some value => rule.form.fault? value
  | none => if rule.isMandatory then some .missingAttribute else none

/-- The report on a broken attribute. -/
def error? (rule : AttributeRule) (use : AnnotationUse) : Option AttributeError :=
  (rule.fault? use).map (AttributeError.mk rule.name)

end AttributeRule

/-- The attributes that a kind asks of its annotation, in the order in which they
are looked at. -/
def ConstraintKind.attributes : ConstraintKind → List AttributeRule
  | decimalMax | decimalMin => [⟨"value", .decimal, true⟩, ⟨"inclusive", .flag, false⟩]
  | digits => [⟨"integer", .shortWord, true⟩, ⟨"fraction", .shortWord, true⟩]
  | max | min => [⟨"value", .word, true⟩]
  | regexp => [⟨"regexp", .text, true⟩]
  | size => [⟨"max", .shortWord, false⟩, ⟨"min", .shortWord, false⟩]
  | null | notNull | isFalse | isTrue | future | past => []

/-- No attribute that a kind asks for is broken. -/
def AnnotationUse.IsUsable (use : AnnotationUse) (kind : ConstraintKind) : Prop :=
  ∀ rule ∈ kind.attributes, rule.fault? use = none

/-- The report on the first broken attribute. -/
def ConstraintKind.firstError? (kind : ConstraintKind) (use : AnnotationUse) :
    Option AttributeError :=
  kind.attributes.findSome? fun rule => rule.error? use

/-- Nothing is reported just if no attribute that the kind asks for is broken. -/
theorem ConstraintKind.firstError?_eq_none_iff {kind : ConstraintKind} {use : AnnotationUse} :
    kind.firstError? use = none ↔ use.IsUsable kind := by
  simp only [firstError?, AttributeRule.error?, List.findSome?_eq_none_iff,
    Option.map_eq_none_iff, AnnotationUse.IsUsable]

/-- What is reported is the fault of one of the attributes. -/
theorem ConstraintKind.exists_rule_of_firstError? {kind : ConstraintKind} {use : AnnotationUse}
    {error : AttributeError} (reported : kind.firstError? use = some error) :
    ∃ rule ∈ kind.attributes, rule.name = error.name ∧ rule.fault? use = some error.fault := by
  obtain ⟨rule, listed, found⟩ := List.exists_of_findSome?_eq_some reported
  obtain ⟨fault, broken, rfl⟩ := Option.map_eq_some_iff.mp found
  exact ⟨rule, listed, rfl, broken⟩

namespace AnnotationUse

/-- An attribute holds a literal, or is not given and stands for its default. -/
def HoldsOr {α : Type} (use : AnnotationUse) (name : String) (default : α)
    (literal : α → AnnotationValue) (held : α) : Prop :=
  use.value? name = some (literal held) ∨ use.value? name = none ∧ held = default

/-- A constraint has the attributes of an annotation as its parameters. -/
def Carries (use : AnnotationUse) : Constraint → Prop
  | .decimalMax value inclusive | .decimalMin value inclusive =>
    (use.value? "value" = some (.string value) ∧ DecimalLiteral.isLiteral value.toList) ∧
      use.HoldsOr "inclusive" true .bool inclusive
  | .digits integer fraction =>
    use.value? "integer" = some (.int integer.toInt64) ∧
      use.value? "fraction" = some (.int fraction.toInt64)
  | .max value | .min value => use.value? "value" = some (.int value)
  | .regexp pattern => use.value? "regexp" = some (.string pattern)
  | .size most least =>
    use.HoldsOr "max" Int32.maxValue (fun most => .int most.toInt64) most ∧
      use.HoldsOr "min" 0 (fun least => .int least.toInt64) least
  | .null | .notNull | .isFalse | .isTrue | .future | .past => True

end AnnotationUse

section Results

variable {ε α β : Type}

/-- The error of a result that is one. -/
def errorOf? : Except ε α → Option ε
  | .error error => some error
  | .ok _ => none

@[simp] theorem errorOf?_error (error : ε) : errorOf? (.error error : Except ε α) = some error :=
  rfl

@[simp] theorem errorOf?_ok (value : α) : errorOf? (.ok value : Except ε α) = none := rfl

theorem errorOf?_bind_ok (first : Except ε α) (make : α → β) :
    errorOf? (first >>= fun value => .ok (make value)) = errorOf? first := by
  cases first <;> rfl

/-- The error of two readings is that of the first one, or else that of the
second one. -/
theorem errorOf?_bind_bind {γ : Type} (first : Except ε α) (second : Except ε β)
    (make : α → β → γ) :
    errorOf? (first >>= fun value => second >>= fun other => .ok (make value other)) =
      (errorOf? first).or (errorOf? second) := by
  cases first with
  | error error => rfl
  | ok value => exact errorOf?_bind_ok second (make value)

theorem findSome?_pair (find : α → Option β) (first second : α) :
    [first, second].findSome? find = (find first).or (find second) := by
  rw [List.findSome?_cons, List.findSome?_singleton]
  cases find first <;> rfl

/-- Two steps succeed just if each does, the second one with what the first one gave. -/
theorem bind_eq_ok_iff {first : Except ε α} {second : α → Except ε β} {value : β} :
    first >>= second = .ok value ↔ ∃ middle, first = .ok middle ∧ second middle = .ok value := by
  constructor
  · intro succeeds
    cases first with
    | error error => cases succeeds
    | ok middle => exact ⟨middle, rfl, succeeds⟩
  · rintro ⟨middle, rfl, succeeds⟩
    exact succeeds

/-- Two steps fail with the error of the first one, or else with that of the second one. -/
theorem bind_eq_error_iff {first : Except ε α} {second : α → Except ε β} {error : ε} :
    first >>= second = .error error ↔
      first = .error error ∨ ∃ middle, first = .ok middle ∧ second middle = .error error := by
  cases first with
  | error other => simp [bind, Except.bind]
  | ok middle => simp [bind, Except.bind]

end Results

/-- A short word is read from the word of the same integer and from no other. -/
theorem Integer.toInt32?_toInt_eq_some_iff {value : Int64} {short : Int32} :
    Integer.toInt32? value.toInt = some short ↔ value = short.toInt64 := by
  unfold Integer.toInt32?
  constructor
  · intro fits
    split at fits
    · rename_i range
      cases fits
      apply Int64.toInt.inj
      rw [Int32.toInt_toInt64]
      exact (Int32.toInt_ofInt_of_le range.1 (Int.lt_add_one_of_le range.2)).symm
    · cases fits
  · rintro rfl
    rw [Int32.toInt_toInt64, Int32.ofInt_toInt]
    exact if_pos ⟨short.minValue_le_toInt, short.toInt_le⟩

namespace AnnotationUse

variable (use : AnnotationUse) (name : String)

theorem errorOf?_word :
    errorOf? (use.word name) = AttributeRule.error? ⟨name, .word, true⟩ use := by
  unfold word mandatory AttributeRule.error? AttributeRule.fault?
  cases use.value? name with
  | none => rfl
  | some value => cases value <;> rfl

/-- Reading a short word fails with the fault of its attribute, the range included. -/
theorem errorOf?_shortWord :
    errorOf? (use.shortWord name) = AttributeRule.error? ⟨name, .shortWord, true⟩ use := by
  unfold shortWord word mandatory AttributeRule.error? AttributeRule.fault?
  cases use.value? name with
  | none => rfl
  | some value =>
      cases value with
      | int value =>
          simp only [AnnotationValue.int?, AttributeForm.fault?, bind, Except.bind,
            Integer.toInt32?]
          by_cases fits : Int32.minValue.toInt ≤ value.toInt ∧ value.toInt ≤ Int32.maxValue.toInt
          · rw [if_pos fits, if_pos fits]
            rfl
          · rw [if_neg fits, if_neg fits]
            rfl
      | _ => rfl

/-- An optional short word is at fault only if it is given; the default makes no difference. -/
theorem errorOf?_shortWordOr (default : Int32) :
    errorOf? (use.shortWordOr name default) =
      AttributeRule.error? ⟨name, .shortWord, false⟩ use := by
  have mandatory := use.errorOf?_shortWord name
  unfold shortWordOr AttributeRule.error? AttributeRule.fault? at *
  cases given : use.value? name with
  | none => rfl
  | some value => simpa only [given] using mandatory

/-- An optional flag is at fault only if it is given; the default makes no difference. -/
theorem errorOf?_flagOr (default : Bool) :
    errorOf? (use.flagOr name default) = AttributeRule.error? ⟨name, .flag, false⟩ use := by
  unfold flagOr AttributeRule.error? AttributeRule.fault?
  cases use.value? name with
  | none => rfl
  | some value => cases value <;> rfl

theorem errorOf?_text :
    errorOf? (use.text name) = AttributeRule.error? ⟨name, .text, true⟩ use := by
  unfold text mandatory AttributeRule.error? AttributeRule.fault?
  cases use.value? name with
  | none => rfl
  | some value => cases value <;> rfl

/-- Reading a decimal number fails with the fault of its attribute, for a text that is no
literal too. -/
theorem errorOf?_decimal :
    errorOf? (use.decimal name) = AttributeRule.error? ⟨name, .decimal, true⟩ use := by
  unfold decimal text mandatory AttributeRule.error? AttributeRule.fault?
  cases use.value? name with
  | none => rfl
  | some value =>
      cases value with
      | string value =>
          simp only [AnnotationValue.string?, AttributeForm.fault?, bind, Except.bind]
          split <;> rfl
      | _ => rfl

theorem word_eq_ok_iff {value : Int64} :
    use.word name = .ok value ↔ use.value? name = some (.int value) := by
  unfold word mandatory
  cases use.value? name with
  | none => simp [bind, Except.bind]
  | some given => cases given <;> simp [bind, Except.bind, AnnotationValue.int?]

theorem shortWord_eq_ok_iff {value : Int32} :
    use.shortWord name = .ok value ↔ use.value? name = some (.int value.toInt64) := by
  unfold shortWord
  rw [bind_eq_ok_iff]
  constructor
  · rintro ⟨long, isWord, isShort⟩
    split at isShort
    · rename_i short fits
      cases isShort
      rw [← Integer.toInt32?_toInt_eq_some_iff.mp fits]
      exact (use.word_eq_ok_iff name).mp isWord
    · cases isShort
  · intro given
    refine ⟨value.toInt64, (use.word_eq_ok_iff name).mpr given, ?_⟩
    rw [Integer.toInt32?_toInt_eq_some_iff.mpr rfl]

theorem text_eq_ok_iff {value : String} :
    use.text name = .ok value ↔ use.value? name = some (.string value) := by
  unfold text mandatory
  cases use.value? name with
  | none => simp [bind, Except.bind]
  | some given => cases given <;> simp [bind, Except.bind, AnnotationValue.string?]

/-- A decimal number is read, as it is spelled, just if the attribute holds a literal. -/
theorem decimal_eq_ok_iff {value : String} :
    use.decimal name = .ok value ↔
      use.value? name = some (.string value) ∧ DecimalLiteral.isLiteral value.toList := by
  unfold decimal
  rw [bind_eq_ok_iff]
  constructor
  · rintro ⟨literal, isText, isDecimal⟩
    split at isDecimal
    · rename_i decimalLiteral
      cases isDecimal
      exact ⟨(use.text_eq_ok_iff name).mp isText, decimalLiteral⟩
    · cases isDecimal
  · rintro ⟨given, decimalLiteral⟩
    exact ⟨value, (use.text_eq_ok_iff name).mpr given, if_pos decimalLiteral⟩

/-- An optional short word is what the attribute holds, or the default if it is not given. -/
theorem shortWordOr_eq_ok_iff {default value : Int32} :
    use.shortWordOr name default = .ok value ↔
      use.HoldsOr name default (fun short => .int short.toInt64) value := by
  unfold shortWordOr HoldsOr
  cases given : use.value? name with
  | none => simp [eq_comm]
  | some held => simp [shortWord_eq_ok_iff, given]

/-- An optional flag is what the attribute holds, or the default if it is not given. -/
theorem flagOr_eq_ok_iff {default value : Bool} :
    use.flagOr name default = .ok value ↔ use.HoldsOr name default .bool value := by
  unfold flagOr HoldsOr
  cases use.value? name with
  | none => simp [eq_comm]
  | some held => cases held <;> simp [AnnotationValue.bool?]

end AnnotationUse

namespace ConstraintKind

open AnnotationUse

/-- **Reading fails on the first broken attribute.** If no attribute is broken, it
does not fail. -/
theorem errorOf?_read (kind : ConstraintKind) (use : AnnotationUse) :
    errorOf? (kind.read use) = kind.firstError? use := by
  cases kind with
  | null | notNull | isFalse | isTrue | future | past => rfl
  | decimalMax | decimalMin =>
      rw [read, errorOf?_bind_bind, errorOf?_decimal, errorOf?_flagOr, firstError?, attributes,
        findSome?_pair]
  | digits =>
      rw [read, errorOf?_bind_bind, errorOf?_shortWord, errorOf?_shortWord, firstError?, attributes,
        findSome?_pair]
  | max | min =>
      rw [read, errorOf?_bind_ok, errorOf?_word, firstError?, attributes, List.findSome?_singleton]
  | regexp =>
      rw [read, errorOf?_bind_ok, errorOf?_text, firstError?, attributes, List.findSome?_singleton]
  | size =>
      rw [read, errorOf?_bind_bind, errorOf?_shortWordOr, errorOf?_shortWordOr, firstError?,
        attributes, findSome?_pair]

/-- **What is read carries the attributes.** The constraint of a kind that carries
the attributes of an annotation is what reading the annotation gives. -/
theorem read_eq_ok_iff {kind : ConstraintKind} {use : AnnotationUse} {constraint : Constraint} :
    kind.read use = .ok constraint ↔ constraint.kind = kind ∧ use.Carries constraint := by
  cases kind with
  | null | notNull | isFalse | isTrue | future | past =>
      cases constraint <;> simp [read, Constraint.kind, Carries]
  | decimalMax | decimalMin =>
      simp only [read, bind_eq_ok_iff, decimal_eq_ok_iff, flagOr_eq_ok_iff]
      cases constraint <;> simp [Constraint.kind, Carries]
  | digits =>
      simp only [read, bind_eq_ok_iff, shortWord_eq_ok_iff]
      cases constraint <;> simp [Constraint.kind, Carries]
  | max | min =>
      simp only [read, bind_eq_ok_iff, word_eq_ok_iff]
      cases constraint <;> simp [Constraint.kind, Carries]
  | regexp =>
      simp only [read, bind_eq_ok_iff, text_eq_ok_iff]
      cases constraint <;> simp [Constraint.kind, Carries]
  | size =>
      simp only [read, bind_eq_ok_iff, shortWordOr_eq_ok_iff, defaultMaxSize, defaultMinSize]
      cases constraint <;> simp [Constraint.kind, Carries]

end ConstraintKind

end ConstraintFacets
