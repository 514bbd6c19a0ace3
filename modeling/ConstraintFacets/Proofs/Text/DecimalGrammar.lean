import ConstraintFacets.Text.Numeral
import Mathlib.Data.List.TakeWhile

/-! # The grammar of decimal literals

A decimal literal is a sign, a mantissa and an exponent, one behind the other; the sign and
the exponent may be empty (`ConstraintFacets.DecimalLiteral.Literal`). The recognizer takes
the longest run of digits wherever digits may stand. It loses nothing by that, since neither a
point nor a mark of an exponent is a digit: it accepts the texts of the grammar and no others
(`ConstraintFacets.DecimalLiteral.isLiteral_iff`).
-/

namespace ConstraintFacets.DecimalLiteral

/-- One of the ten digits. -/
def Digit (c : Char) : Prop :=
  '0' ≤ c ∧ c ≤ '9'

/-- One or more digits. -/
def Digits (text : List Char) : Prop :=
  text ≠ [] ∧ ∀ c ∈ text, Digit c

/-- A sign, or none. -/
inductive Sign : List Char → Prop where
  | none : Sign []
  | plus : Sign ['+']
  | minus : Sign ['-']

/-- Digits with a point nowhere, among or behind them, or before all of them. -/
inductive Mantissa : List Char → Prop where
  | whole {digits : List Char} (areDigits : Digits digits) : Mantissa digits
  | pointed {whole fraction : List Char} (areDigits : Digits whole)
      (fractional : ∀ c ∈ fraction, Digit c) : Mantissa (whole ++ '.' :: fraction)
  | fraction {digits : List Char} (areDigits : Digits digits) : Mantissa ('.' :: digits)

/-- A mark with an integer behind it, or nothing. -/
inductive Exponent : List Char → Prop where
  | none : Exponent []
  | marked {mark : Char} {sign digits : List Char} (isMark : mark = 'e' ∨ mark = 'E')
      (isSign : Sign sign) (areDigits : Digits digits) : Exponent (mark :: (sign ++ digits))

/-- A decimal literal: a sign, a mantissa and an exponent. -/
inductive Literal : List Char → Prop where
  | mk {sign mantissa exponent : List Char} (isSign : Sign sign) (isMantissa : Mantissa mantissa)
      (isExponent : Exponent exponent) : Literal (sign ++ (mantissa ++ exponent))

variable {c : Char} {text : List Char}

theorem isDigit_iff : c.isDigit = true ↔ Digit c :=
  Char.isDigit_iff_toNat

/-- The recognizer of runs accepts one or more digits. -/
theorem isDigits_iff : isDigits text = true ↔ Digits text := by
  simp [isDigits, Digits, isDigit_iff]

theorem Digits.all (areDigits : Digits text) : ∀ c ∈ text, c.isDigit = true :=
  fun c member => isDigit_iff.mpr (areDigits.2 c member)

/-- A text does not start with a sign. -/
def Unsigned (text : List Char) : Prop :=
  ∀ c ∈ text.head?, c ≠ '+' ∧ c ≠ '-'

theorem Digits.unsigned (areDigits : Digits text) (rest : List Char) :
    Unsigned (text ++ rest) := by
  obtain ⟨first, others, rfl⟩ := List.exists_cons_of_ne_nil areDigits.1
  have digit : first.isDigit = true := areDigits.all first List.mem_cons_self
  rintro c ⟨⟩
  constructor
  · rintro rfl
    cases digit
  · rintro rfl
    cases digit

/-- The sign before an unsigned text is dropped, and nothing else. -/
theorem dropSign_append {sign : List Char} (isSign : Sign sign) (unsigned : Unsigned text) :
    dropSign (sign ++ text) = text := by
  cases isSign with
  | none =>
    cases text with
    | nil => rfl
    | cons c rest => exact if_neg (not_or.mpr (unsigned c rfl))
  | plus | minus => rfl

/-- What is dropped is a sign, or nothing. -/
theorem exists_sign_append_dropSign (text : List Char) :
    ∃ sign, Sign sign ∧ text = sign ++ dropSign text := by
  cases text with
  | nil => exact ⟨[], .none, rfl⟩
  | cons c rest =>
    by_cases isSign : c = '+' ∨ c = '-'
    · rw [dropSign, if_pos isSign]
      rcases isSign with rfl | rfl
      · exact ⟨_, .plus, rfl⟩
      · exact ⟨_, .minus, rfl⟩
    · rw [dropSign, if_neg isSign]
      exact ⟨[], .none, rfl⟩

/-- The recognizer of exponents accepts the exponents of the grammar. -/
theorem isExponent_iff : isExponent text = true ↔ Exponent text := by
  constructor
  · intro isExponent
    cases text with
    | nil => exact .none
    | cons mark rest =>
      simp only [DecimalLiteral.isExponent, Bool.and_eq_true, Bool.or_eq_true, beq_iff_eq,
        isDigits_iff] at isExponent
      obtain ⟨sign, isSign, split⟩ := exists_sign_append_dropSign rest
      rw [split]
      exact .marked isExponent.1 isSign isExponent.2
  · rintro (_ | ⟨isMark, isSign, areDigits⟩)
    · rfl
    · have unsigned := areDigits.unsigned []
      rw [List.append_nil] at unsigned
      rw [DecimalLiteral.isExponent, dropSign_append isSign unsigned, isDigits_iff.mpr areDigits]
      simpa using isMark

/-- A text goes on neither with a digit nor with a point. -/
def Closed (text : List Char) : Prop :=
  ∀ c ∈ text.head?, c.isDigit = false ∧ c ≠ '.'

/-- The run of digits before an exponent ends where the exponent starts. -/
theorem Exponent.closed (exponent : Exponent text) : Closed text := by
  cases exponent with
  | none => exact nofun
  | marked isMark =>
    rintro c ⟨⟩
    rcases isMark with rfl | rfl <;> decide

section Runs

variable {whole rest : List Char} (areDigits : ∀ c ∈ whole, c.isDigit = true)
include areDigits

/-- The longest run of digits is all of a run that ends. -/
theorem takeWhile_isDigit_append (ends : ∀ c ∈ rest.head?, c.isDigit = false) :
    (whole ++ rest).takeWhile Char.isDigit = whole := by
  rw [List.takeWhile_append_of_pos areDigits]
  cases rest with
  | nil => simp
  | cons c others => simp [ends c rfl]

/-- Behind the longest run of digits comes what follows a run that ends. -/
theorem dropWhile_isDigit_append (ends : ∀ c ∈ rest.head?, c.isDigit = false) :
    (whole ++ rest).dropWhile Char.isDigit = rest := by
  rw [List.dropWhile_append_of_pos areDigits]
  cases rest with
  | nil => rfl
  | cons c others => simp [ends c rfl]

/-- Digits without a point are accepted if there are any and an exponent follows. -/
theorem isUnsigned_append (closed : Closed rest) :
    isUnsigned (whole ++ rest) = (!whole.isEmpty && isExponent rest) := by
  have ends : ∀ c ∈ rest.head?, c.isDigit = false := fun c first => (closed c first).1
  rw [isUnsigned, takeWhile_isDigit_append areDigits ends, dropWhile_isDigit_append areDigits ends]
  split
  · exact absurd rfl (closed '.' rfl).2
  · rfl

/-- Digits with a point are accepted if one of the two runs is not empty and an exponent
follows. -/
theorem isUnsigned_point {fraction : List Char} (fractional : ∀ c ∈ fraction, c.isDigit = true)
    (ends : ∀ c ∈ rest.head?, c.isDigit = false) :
    isUnsigned (whole ++ '.' :: (fraction ++ rest)) =
      (!(whole.isEmpty && fraction.isEmpty) && isExponent rest) := by
  have point : ∀ c ∈ ('.' :: (fraction ++ rest)).head?, c.isDigit = false := by
    rintro c ⟨⟩
    rfl
  rw [isUnsigned, takeWhile_isDigit_append areDigits point,
    dropWhile_isDigit_append areDigits point]
  simp only [takeWhile_isDigit_append fractional ends, dropWhile_isDigit_append fractional ends]

end Runs

/-- Every text starts with a run of digits that ends, if only with an empty one. -/
theorem exists_run (text : List Char) :
    ∃ digits rest, text = digits ++ rest ∧ (∀ c ∈ digits, c.isDigit = true) ∧
      ∀ c ∈ rest.head?, c.isDigit = false := by
  refine ⟨text.takeWhile Char.isDigit, text.dropWhile Char.isDigit,
    List.takeWhile_append_dropWhile.symm, fun c => List.mem_takeWhile_imp, ?_⟩
  intro c first
  have ends := List.head?_dropWhile_not Char.isDigit text
  rwa [Option.mem_def.mp first] at ends

/-- What is accepted without a sign is a mantissa and an exponent. -/
theorem exists_parts_of_isUnsigned (unsigned : isUnsigned text = true) :
    ∃ mantissa exponent, text = mantissa ++ exponent ∧ Mantissa mantissa ∧ Exponent exponent := by
  obtain ⟨whole, rest, rfl, areDigits, ends⟩ := exists_run text
  have isRun {digits : List Char} (all : ∀ c ∈ digits, c.isDigit = true) (nonempty : digits ≠ []) :
      Digits digits := ⟨nonempty, fun c member => isDigit_iff.mp (all c member)⟩
  by_cases pointed : rest.head? = some '.'
  · obtain ⟨more, rfl⟩ := List.head?_eq_some_iff.mp pointed
    obtain ⟨fraction, exponent, rfl, fractional, ends⟩ := exists_run more
    rw [isUnsigned_point areDigits fractional ends, Bool.and_eq_true, isExponent_iff] at unsigned
    refine ⟨whole ++ '.' :: fraction, exponent, by simp, ?_, unsigned.2⟩
    cases whole with
    | nil => exact .fraction (isRun fractional (by simpa using unsigned.1))
    | cons first others =>
      exact .pointed (isRun areDigits (List.cons_ne_nil _ _))
        fun c member => isDigit_iff.mp (fractional c member)
  · have closed : Closed rest := by
      intro c first
      refine ⟨ends c first, ?_⟩
      rintro rfl
      exact pointed first
    rw [isUnsigned_append areDigits closed, Bool.and_eq_true, isExponent_iff] at unsigned
    exact ⟨whole, rest, rfl, .whole (isRun areDigits (by simpa using unsigned.1)), unsigned.2⟩

/-- A mantissa and an exponent are accepted. -/
theorem isUnsigned_of_parts {mantissa exponent : List Char} (isMantissa : Mantissa mantissa)
    (isExponent : Exponent exponent) : isUnsigned (mantissa ++ exponent) = true := by
  have closed := isExponent.closed
  have ends : ∀ c ∈ exponent.head?, c.isDigit = false := fun c first => (closed c first).1
  have accepted := isExponent_iff.mpr isExponent
  cases isMantissa with
  | whole areDigits =>
    rw [isUnsigned_append areDigits.all closed, accepted]
    simpa using areDigits.1
  | pointed areDigits fractional =>
    have alsoDigits := fun c member => isDigit_iff.mpr (fractional c member)
    rw [List.append_assoc, List.cons_append, isUnsigned_point areDigits.all alsoDigits ends,
      accepted]
    simp [areDigits.1]
  | fraction areDigits =>
    have nonempty := List.isEmpty_eq_false_iff.mpr areDigits.1
    have unsigned := isUnsigned_point (List.forall_mem_nil _) areDigits.all ends
    rw [List.nil_append, accepted] at unsigned
    simpa [nonempty] using unsigned

theorem Mantissa.unsigned {mantissa : List Char} (isMantissa : Mantissa mantissa)
    (rest : List Char) : Unsigned (mantissa ++ rest) := by
  cases isMantissa with
  | whole areDigits => exact areDigits.unsigned rest
  | pointed areDigits fractional =>
    rw [List.append_assoc]
    exact areDigits.unsigned _
  | fraction areDigits =>
    rintro c ⟨⟩
    decide

/-- The recognizer accepts the texts of the grammar and no others. -/
theorem isLiteral_iff : isLiteral text = true ↔ Literal text := by
  constructor
  · intro isLiteral
    obtain ⟨sign, isSign, split⟩ := exists_sign_append_dropSign text
    obtain ⟨mantissa, exponent, parts, isMantissa, isExponent⟩ :=
      exists_parts_of_isUnsigned isLiteral
    rw [split, parts]
    exact .mk isSign isMantissa isExponent
  · rintro ⟨isSign, isMantissa, isExponent⟩
    rw [isLiteral, dropSign_append isSign (isMantissa.unsigned _)]
    exact isUnsigned_of_parts isMantissa isExponent

-- A sign or a point alone, an exponent without digits, and a line end are no literals.
example : ["-.5e+10", "7.", "+", ".", "1e", "1\n"].map (fun text => isLiteral text.toList) =
    [true, true, false, false, false, false] := by
  decide

end ConstraintFacets.DecimalLiteral
