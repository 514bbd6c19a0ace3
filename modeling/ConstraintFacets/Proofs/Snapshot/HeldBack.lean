import ConstraintFacets.Proofs.Snapshot.Records

/-! # What may be held back

A value may be held back if it nests no deeper than there is room for, its numbers are
in range, and its strings and the names of its members denote texts
(`ConstraintFacets.Json.isSound_of_depth_le`). Integers of 64 bits are in range
(`ConstraintFacets.JsonNumber.isFinite_of_isWord`): their digits all fit the significand,
and the nearest double is at most twice as large.
-/

namespace ConstraintFacets

namespace JsonNumber

/-- A number is an integer of 64 bits: it has no fraction and no exponent. A zero may have
a sign. -/
def IsWord (number : JsonNumber) : Prop :=
  number.fraction = [] ∧ number.exponent = none ∧
    number.integral ≤ if number.negative then 9223372036854775808 else 9223372036854775807

instance (number : JsonNumber) : Decidable number.IsWord :=
  inferInstanceAs (Decidable (_ ∧ _ ∧ _))

/-- Digits behind a number do not make it smaller. -/
theorem le_ofDigitChars (digits : List Char) (start : Nat) :
    start ≤ Nat.ofDigitChars 10 digits start := by
  induction digits generalizing start with
  | nil => exact Nat.le_refl start
  | cons digit rest ih =>
      rw [Nat.ofDigitChars_cons]
      exact Nat.le_trans (by omega) (ih _)

/-- Digits that fit the significand all go into it. -/
theorem scaleIntegral_of_fits {digits : List Char} {start bound : Nat} (below : start ≤ bound)
    (fits : Nat.ofDigitChars 10 digits bound < UInt64.size) :
    ∃ significand ≤ Nat.ofDigitChars 10 digits bound,
      scaleIntegral start (digits.map Integer.digitValue) = ⟨significand, 0⟩ := by
  induction digits generalizing start bound with
  | nil => exact ⟨start, below, rfl⟩
  | cons digit rest ih =>
      rw [Nat.ofDigitChars_cons] at fits ⊢
      have digitBelow : (Integer.digitValue digit : Nat) ≤ digit.toNat - '0'.toNat :=
        Nat.mod_le _ _
      have nextBelow : start * 10 + Integer.digitValue digit ≤
          10 * bound + (digit.toNat - '0'.toNat) := by omega
      have nextFits : start * 10 + Integer.digitValue digit < UInt64.size :=
        Nat.lt_of_le_of_lt (Nat.le_trans nextBelow (le_ofDigitChars rest _)) fits
      rw [List.map_cons, scaleIntegral, withDigit?, if_pos nextFits]
      exact ih nextBelow fits

/-- The nearest double of a number is at most twice as large. -/
theorem nearestDouble_le (value : Nat) : nearestDouble value ≤ 2 * value := by
  by_cases zero : value = 0
  · subst zero
    decide
  · have unit_le : 1 <<< (value.log2 + 1 - 53) ≤ value := by
      rw [Nat.one_shiftLeft]
      refine Nat.le_trans (Nat.pow_le_pow_right (by decide) ?_) (Nat.log2_self_le zero)
      omega
    have below := Nat.div_mul_le_self value (1 <<< (value.log2 + 1 - 53))
    unfold nearestDouble
    dsimp only
    split
    · rw [Nat.add_mul]
      omega
    · omega

/-- Integers of 64 bits are in the range of double precision. -/
theorem isFinite_of_isWord {number : JsonNumber} (word : number.IsWord) : number.isFinite := by
  obtain ⟨fraction, exponent, small⟩ := word
  have short : number.integral < UInt64.size := by
    rw [UInt64.size]
    split at small <;> omega
  have fits : Nat.ofDigitChars 10 (Integer.digits number.integral) 0 < UInt64.size := by
    rwa [← Integer.ofDigits, Integer.ofDigits_digits]
  obtain ⟨significand, below, whole⟩ := scaleIntegral_of_fits (Nat.le_refl 0) fits
  have scaled : number.scaled = ⟨significand, 0⟩ := by
    simp only [JsonNumber.scaled, fraction, exponent, whole, scaleFraction, Option.getD_none,
      Int.add_zero]
  have product : nearestDouble significand * nearestDouble (Nat.pow 10 0) ≤ 2 * UInt64.size := by
    have one : nearestDouble (Nat.pow 10 0) = 1 := by decide
    rw [one, Nat.mul_one]
    have double := nearestDouble_le significand
    omega
  have range : 2 * UInt64.size < 1 <<< 1024 - 1 <<< 970 := by decide
  rw [isFinite, scaled]
  simp only [Int.lt_irrefl, false_or, Int.toNat_zero]
  split
  · rfl
  · exact decide_eq_true (Nat.lt_of_le_of_lt product range)

end JsonNumber

namespace Json

mutual

/-- A value with all values inside it. -/
def subterms : Json → List Json
  | .array items => .array items :: subtermsOfItems items
  | .object members => .object members :: subtermsOfMembers members
  | json => [json]

/-- The values inside items. -/
def subtermsOfItems : List Json → List Json
  | [] => []
  | item :: rest => subterms item ++ subtermsOfItems rest

/-- The values inside members. -/
def subtermsOfMembers : List (Option String × Json) → List Json
  | [] => []
  | (_, value) :: rest => subterms value ++ subtermsOfMembers rest

end

/-- The items of an array, or the values of the members of an object. -/
def parts : Json → List Json
  | .array items => items
  | .object members => members.map Prod.snd
  | _ => []

/-- The literal of a string, or the names of the members of an object. -/
def ownTexts : Json → List (Option String)
  | .string text => [text]
  | .object members => members.map Prod.fst
  | _ => []

/-- The number that a value is. -/
def number? : Json → Option JsonNumber
  | .number value => some value
  | _ => none

/-- The numbers in a value. -/
def numbers (json : Json) : List JsonNumber :=
  json.subterms.filterMap number?

/-- The strings in a value, names of members included. -/
def texts (json : Json) : List (Option String) :=
  json.subterms.flatMap ownTexts

/-- The members of each of the objects in a value. -/
def objects (json : Json) : List (List (Option String × Json)) :=
  json.subterms.filterMap members?

section Parts

variable {json part : Json} {room : Nat}

theorem mem_subtermsOfItems {items : List Json} {inner : Json} :
    inner ∈ subtermsOfItems items ↔ ∃ item ∈ items, inner ∈ item.subterms := by
  induction items with
  | nil => simp [subtermsOfItems]
  | cons item rest ih => simp [subtermsOfItems, ih]

theorem mem_subtermsOfMembers {members : List (Option String × Json)} {inner : Json} :
    inner ∈ subtermsOfMembers members ↔ ∃ value ∈ members.map Prod.snd, inner ∈ value.subterms := by
  induction members with
  | nil => simp [subtermsOfMembers]
  | cons member rest ih => simp [subtermsOfMembers, ih]

/-- What is inside a value is the value itself or inside one of its parts. -/
theorem mem_subterms_iff {inner : Json} :
    inner ∈ json.subterms ↔ inner = json ∨ ∃ part ∈ json.parts, inner ∈ part.subterms := by
  cases json with
  | array items => rw [subterms, List.mem_cons, mem_subtermsOfItems]; rfl
  | object members => rw [subterms, List.mem_cons, mem_subtermsOfMembers]; rfl
  | _ => simp [subterms, parts]

theorem self_mem_subterms (json : Json) : json ∈ json.subterms :=
  mem_subterms_iff.mpr (.inl rfl)

/-- The parts of a document stand inside it. -/
theorem mem_subterms_of_mem_parts (listed : part ∈ json.parts) : part ∈ json.subterms :=
  mem_subterms_iff.mpr (.inr ⟨part, listed, self_mem_subterms part⟩)

/-- The parts of a document nest less deep than the document. -/
theorem depth_lt_of_mem_parts (listed : part ∈ json.parts) : part.depth < json.depth := by
  cases json with
  | array items => exact Nat.lt_succ_of_le (depth_le_of_mem_items listed)
  | object members =>
      obtain ⟨member, isMember, rfl⟩ := List.mem_map.mp listed
      exact Nat.lt_succ_of_le (depth_le_of_mem_members isMember)
  | _ => cases listed

/-- What is inside something inside a value is inside the value. -/
theorem subterms_subset {json inner : Json} (isInner : inner ∈ json.subterms) :
    inner.subterms ⊆ json.subterms := by
  rcases mem_subterms_iff.mp isInner with rfl | ⟨part, listed, inPart⟩
  · exact List.Subset.refl _
  · have below := depth_lt_of_mem_parts listed
    exact fun _ deeper => mem_subterms_iff.mpr (.inr ⟨part, listed, subterms_subset inPart deeper⟩)
termination_by json.depth

/-- The numbers inside a part are numbers of the document. -/
theorem numbers_subset (isInner : part ∈ json.subterms) : part.numbers ⊆ json.numbers :=
  List.filterMap_subset _ (subterms_subset isInner)

/-- The strings inside a part are strings of the document. -/
theorem texts_subset (isInner : part ∈ json.subterms) : part.texts ⊆ json.texts := by
  intro text isText
  obtain ⟨inner, deeper, own⟩ := List.mem_flatMap.mp isText
  exact List.mem_flatMap.mpr ⟨inner, subterms_subset isInner deeper, own⟩

/-- A value may be held back if it nests no deeper than there is room for, its numbers
are in range and its strings and names denote texts. -/
theorem isSound_of_depth_le (fits : json.depth ≤ room)
    (finite : ∀ number ∈ json.numbers, number.isFinite) (meant : ∀ text ∈ json.texts, text.isSome) :
    json.isSound room := by
  induction room generalizing json with
  | zero =>
      cases json with
      | null => rfl
      | bool value => rfl
      | number value => exact finite value (.head _)
      | string text => exact meant text (.head _)
      | array items => simp [depth] at fits
      | object members => simp [depth] at fits
  | succ room ih =>
      have inner : ∀ part ∈ json.parts, part.isSound room := fun part listed =>
        have isInner := mem_subterms_of_mem_parts listed
        ih (Nat.le_of_lt_succ (Nat.lt_of_lt_of_le (depth_lt_of_mem_parts listed) fits))
          (fun number inside => finite number (numbers_subset isInner inside))
          (fun text inside => meant text (texts_subset isInner inside))
      cases json with
      | null => rfl
      | bool value => rfl
      | number value => exact finite value (.head _)
      | string text => exact meant text (.head _)
      | array items => exact List.all_eq_true.mpr inner
      | object members =>
          rw [isSound, List.all_eq_true]
          intro member listed
          have named : member.1 ∈ (object members).texts :=
            List.mem_flatMap.mpr ⟨_, self_mem_subterms _, List.mem_map.mpr ⟨member, listed, rfl⟩⟩
          rw [Bool.and_eq_true]
          exact ⟨meant member.1 named, inner member.2 (List.mem_map.mpr ⟨member, listed, rfl⟩)⟩

end Parts

end Json

end ConstraintFacets
