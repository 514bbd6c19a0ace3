import ConstraintFacets.Json.Parser
import ConstraintFacets.Json.Printer

/-! # Reading values back

Every value can be read back from its compact text
(`ConstraintFacets.Json.parse_compact`), so that values with the same text are
equal (`ConstraintFacets.Json.compact_injective`). The proof goes by the parts of
a value: each is read back from the start of a larger text, if the steps suffice
for its own characters (`ConstraintFacets.Json.parseValue_render`).

A string literal is read back whatever follows it
(`ConstraintFacets.Json.scanString_quote`), since every character has one written
form. A number is read back part by part
(`ConstraintFacets.Json.scanNumber_render`): sign, digits before the point, digits
behind it, exponent. What follows the number must not go on with it; that is so
wherever a value can end (`ConstraintFacets.Json.Closes`).
-/

namespace ConstraintFacets.Json

/-- The escape of a control character is read back. -/
theorem pieceOfHex?_hexDigit {c : Char} (control : c.toNat < 0x20) :
    pieceOfHex? '0' '0' (hexDigit (c.toNat / 16)) (hexDigit (c.toNat % 16)) =
      some (.char c) := by
  have all : ∀ value < 0x20, pieceOfHex? '0' '0' (hexDigit (value / 16)) (hexDigit (value % 16)) =
      some (.char (Char.ofNat value)) := by decide
  rw [all c.toNat control, Char.ofNat_toNat]

/-- The form of a character is read back as that character. -/
theorem scanPieces_escape (c : Char) (rest : List Char) :
    scanPieces (escape c ++ rest) =
      (scanPieces rest).bind fun scanned => some (.char c :: scanned.1, scanned.2) := by
  unfold escape
  by_cases quote : c = '"'
  · subst quote
    simp [scanPieces, shortEscape?]
  by_cases backslash : c = '\\'
  · subst backslash
    simp [scanPieces, shortEscape?]
  by_cases backspace : c = '\x08'
  · subst backspace
    simp [scanPieces, shortEscape?]
  by_cases formFeed : c = '\x0c'
  · subst formFeed
    simp [scanPieces, shortEscape?]
  by_cases lineFeed : c = '\n'
  · subst lineFeed
    simp [scanPieces, shortEscape?]
  by_cases carriageReturn : c = '\r'
  · subst carriageReturn
    simp [scanPieces, shortEscape?]
  by_cases tab : c = '\t'
  · subst tab
    simp [scanPieces, shortEscape?]
  simp only [quote, backslash, backspace, formFeed, lineFeed, carriageReturn, tab, ↓reduceIte]
  by_cases control : c.toNat < 0x20
  · simp [control, scanPieces, pieceOfHex?_hexDigit control]
  · simp [control, scanPieces, backslash]

/-- The pieces of a text are its characters. -/
theorem scanPieces_flatMap_escape (text rest : List Char) :
    scanPieces (text.flatMap escape ++ '"' :: rest) = some (text.map .char, rest) := by
  induction text with
  | nil => simp [scanPieces]
  | cons c others ih =>
      simp only [List.flatMap_cons, List.append_assoc, scanPieces_escape, ih, Option.bind_some,
        List.map_cons]

/-- Pieces that are all characters denote the text of these characters. -/
theorem charsOfPieces?_map_char (text : List Char) :
    charsOfPieces? (text.map .char) = some text := by
  induction text with
  | nil => rfl
  | cons c others ih => simp [charsOfPieces?, ih]

/-- A literal is read back, also one that denotes no text. -/
theorem scanString_quote (text : Option String) (rest : List Char) :
    ∃ inside, quote text = '"' :: inside ∧ scanString (inside ++ rest) = some (text, rest) := by
  cases text with
  | none => exact ⟨_, rfl, rfl⟩
  | some text =>
      refine ⟨_, rfl, ?_⟩
      simp [scanString, scanPieces_flatMap_escape, textOfPieces, charsOfPieces?_map_char]

/-- Whether a text ends the value before it: it is empty, or a comma or a closing
bracket comes first. -/
def Closes (text : List Char) : Prop :=
  ∀ c ∈ text.head?, c = ',' ∨ c = ']' ∨ c = '\x7d'

theorem closes_nil : Closes [] := by
  simp [Closes]

/-- A comma or a closing bracket ends the value before it. -/
theorem closes_cons {c : Char} {rest : List Char} (closing : c = ',' ∨ c = ']' ∨ c = '\x7d') :
    Closes (c :: rest) := by
  simpa [Closes] using closing

/-- A number is read up to its last digit. -/
theorem scanDigits_append {digits rest : List Char} (nonempty : digits ≠ [])
    (areDigits : ∀ c ∈ digits, c.isDigit = true) (ends : ∀ c ∈ rest.head?, c.isDigit = false) :
    scanDigits (digits ++ rest) = some (digits, rest) := by
  have after : rest.takeWhile Char.isDigit = [] ∧ rest.dropWhile Char.isDigit = rest := by
    cases rest with
    | nil => simp
    | cons c others => simp [ends c (by simp)]
  simp [scanDigits, List.takeWhile_append_of_pos areDigits, List.dropWhile_append_of_pos areDigits,
    after, nonempty]

theorem isDigit_of_mem_digits (value : Nat) {c : Char} (member : c ∈ Integer.digits value) :
    c.isDigit = true :=
  Nat.isDigit_of_mem_toDigits (by decide) (by decide) member

theorem digits_ne_nil (value : Nat) : Integer.digits value ≠ [] :=
  Nat.toDigits_ne_nil

/-- Only zero is written with a zero first. -/
theorem head?_digits {value : Nat} (positive : 0 < value) :
    (Integer.digits value).head? ≠ some '0' := by
  induction value using Nat.strongRecOn with
  | ind value ih =>
      unfold Integer.digits
      rw [Nat.toDigits_eq_if (by decide)]
      split
      · rename_i small
        have apart : ∀ digit < 10, 0 < digit → [Nat.digitChar digit].head? ≠ some '0' := by decide
        exact apart value small positive
      · rename_i large
        have shorter := ih (value / 10) (by omega) (by omega)
        unfold Integer.digits at shorter
        rw [List.head?_append]
        cases first : (Nat.toDigits 10 (value / 10)).head? with
        | none => exact absurd (List.head?_eq_none_iff.mp first) Nat.toDigits_ne_nil
        | some c =>
            rw [first] at shorter
            simpa using shorter

theorem digits_zero : Integer.digits 0 = ['0'] := rfl

/-- The digits before the point are read back: there are no leading zeros among them. -/
theorem scanIntegral_append (value : Nat) (rest : List Char)
    (ends : ∀ c ∈ rest.head?, c.isDigit = false) :
    scanIntegral (Integer.digits value ++ rest) = some (value, rest) := by
  cases Nat.eq_zero_or_pos value with
  | inl zero =>
      subst zero
      simp [digits_zero, scanIntegral]
  | inr positive =>
      have scanned := scanDigits_append (digits_ne_nil value)
        (fun _ => isDigit_of_mem_digits _) ends
      have first := head?_digits positive
      cases written : Integer.digits value with
      | nil => exact absurd written (digits_ne_nil value)
      | cons c others =>
          rw [written] at first scanned
          have notZero : c ≠ '0' := by simpa using first
          rw [List.cons_append] at scanned ⊢
          rw [scanIntegral]
          · simp only [scanned, Option.map_some]
            rw [← written, Integer.ofDigits_digits]
          · intro more same
            exact notZero (List.cons.inj same).1

/-- The digits behind the point are read back; without any there is no point. -/
theorem scanFraction_append (fraction : List (Fin 10)) (rest : List Char)
    (ends : ∀ c ∈ rest.head?, c.isDigit = false ∧ c ≠ '.') :
    scanFraction (renderFraction fraction ++ rest) = some (fraction, rest) := by
  cases fraction with
  | nil =>
      simp only [renderFraction, ↓reduceIte, List.nil_append]
      rw [scanFraction]
      intro more same
      exact (ends '.' (by simp [same])).2 rfl
  | cons digit others =>
      simp only [renderFraction, reduceCtorEq, ↓reduceIte, List.cons_append]
      rw [scanFraction, scanDigits_append (by simp) _ (fun c member => (ends c member).1)]
      · simp [Function.comp_def]
      · intro c member
        obtain ⟨value, -, rfl⟩ := List.mem_map.mp member
        exact Integer.isDigit_digitChar value

/-- The exponent is read back with its sign, or none if none is written. -/
theorem scanExponent_append (exponent : Option Int) (rest : List Char)
    (ends : ∀ c ∈ rest.head?, c.isDigit = false ∧ c ≠ 'e' ∧ c ≠ 'E') :
    scanExponent (renderExponent exponent ++ rest) = some (exponent, rest) := by
  have digitsEnd : ∀ c ∈ rest.head?, c.isDigit = false := fun c member => (ends c member).1
  cases exponent with
  | none =>
      simp only [renderExponent, List.nil_append]
      cases rest with
      | nil => rfl
      | cons c others =>
          have unmarked := (ends c (by simp)).2
          simp [scanExponent, unmarked]
  | some value =>
      cases value with
      | ofNat value =>
          have scanned := scanDigits_append (digits_ne_nil value)
            (fun _ => isDigit_of_mem_digits _) digitsEnd
          simp only [renderExponent, Integer.render, List.cons_append]
          cases written : Integer.digits value with
          | nil => exact absurd written (digits_ne_nil value)
          | cons c others =>
              have isDigit : c.isDigit = true :=
                isDigit_of_mem_digits value (by simp [written])
              have notMinus : c ≠ '-' := by rintro rfl; simp at isDigit
              have notPlus : c ≠ '+' := by rintro rfl; simp at isDigit
              rw [written] at scanned
              rw [List.cons_append] at scanned ⊢
              simp only [scanExponent, true_or, ↓reduceIte]
              split
              · rename_i same
                exact absurd (List.cons.inj same).1 notMinus
              · rename_i same
                exact absurd (List.cons.inj same).1 notPlus
              · rw [scanned, ← written]
                simp [Integer.ofDigits_digits]
      | negSucc value =>
          have scanned := scanDigits_append (digits_ne_nil (value + 1))
            (fun _ => isDigit_of_mem_digits _) digitsEnd
          simp only [renderExponent, Integer.render, List.cons_append, scanExponent, true_or,
            ↓reduceIte, scanned, Option.map_some, Integer.ofDigits_digits]
          rfl

theorem closes_isDigit {rest : List Char} (closes : Closes rest) :
    ∀ c ∈ rest.head?, c.isDigit = false ∧ c ≠ '.' ∧ c ≠ 'e' ∧ c ≠ 'E' := by
  intro c member
  rcases closes c member with rfl | rfl | rfl <;> decide

/-- The sign is read back; what follows it starts with no other minus sign. -/
theorem scanSign_append (negative : Bool) (rest : List Char) (ends : rest.head? ≠ some '-') :
    scanSign (renderSign negative ++ rest) = (negative, rest) := by
  cases negative with
  | true => rfl
  | false =>
      simp only [renderSign, Bool.false_eq_true, ↓reduceIte, List.nil_append]
      rw [scanSign]
      intro more same
      exact ends (by simp [same])

/-- The first character of a run of digits. -/
theorem head?_digits_append (value : Nat) (rest : List Char) :
    ∃ c, (Integer.digits value ++ rest).head? = some c ∧ c.isDigit = true := by
  cases written : Integer.digits value with
  | nil => exact absurd written (digits_ne_nil value)
  | cons c others =>
      exact ⟨c, rfl, isDigit_of_mem_digits value (by simp [written])⟩

/-- A number is read back. -/
theorem scanNumber_render (number : JsonNumber) {rest : List Char} (closes : Closes rest) :
    scanNumber (renderNumber number ++ rest) = some (number, rest) := by
  obtain ⟨negative, integral, fraction, exponent⟩ := number
  have after := closes_isDigit closes
  have exponentRead := scanExponent_append exponent rest
    fun c member => ⟨(after c member).1, (after c member).2.2⟩
  have fractionRead := scanFraction_append fraction (renderExponent exponent ++ rest) (by
    intro c member
    cases exponent with
    | none => exact ⟨(after c member).1, (after c member).2.1⟩
    | some value =>
        have same : 'e' = c := Option.some.inj member
        subst same
        decide)
  have integralRead := scanIntegral_append integral
    (renderFraction fraction ++ (renderExponent exponent ++ rest)) (by
    intro c member
    cases fraction with
    | nil =>
        cases exponent with
        | none => exact (after c member).1
        | some value =>
            have same : 'e' = c := Option.some.inj member
            subst same
            decide
    | cons digit others =>
        have same : '.' = c := Option.some.inj member
        subst same
        decide)
  have signRead := scanSign_append negative (Integer.digits integral ++
    (renderFraction fraction ++ (renderExponent exponent ++ rest))) (by
    intro same
    obtain ⟨c, first, isDigit⟩ := head?_digits_append integral
      (renderFraction fraction ++ (renderExponent exponent ++ rest))
    rw [first] at same
    rw [Option.some.inj same] at isDigit
    simp at isDigit)
  simp only [renderNumber, List.append_assoc, scanNumber, signRead, integralRead, fractionRead,
    exponentRead, Option.bind_eq_bind, Option.bind_some]

/-- Whether a character can be the first one of a value. -/
def Opens (c : Char) : Prop :=
  isSpace c = false ∧ c ≠ ']'

theorem opens_of_isDigit {c : Char} (isDigit : c.isDigit = true) : Opens c := by
  constructor
  · cases blank : isSpace c with
    | false => rfl
    | true =>
        simp only [isSpace, Bool.or_eq_true, beq_iff_eq] at blank
        rcases blank with ((rfl | rfl) | rfl) | rfl <;> simp at isDigit
  · rintro rfl
    simp at isDigit

/-- A number starts with a digit or a minus sign. -/
theorem renderNumber_eq_cons (number : JsonNumber) :
    ∃ c others, renderNumber number = c :: others ∧ (c.isDigit = true ∨ c = '-') := by
  obtain ⟨negative, integral, fraction, exponent⟩ := number
  cases negative with
  | true => exact ⟨'-', _, rfl, .inr rfl⟩
  | false =>
      cases written : Integer.digits integral with
      | nil => exact absurd written (digits_ne_nil integral)
      | cons c others =>
          refine ⟨c, others ++ renderFraction fraction ++ renderExponent exponent, ?_, .inl ?_⟩
          · simp [renderNumber, renderSign, written]
          · exact isDigit_of_mem_digits integral (by simp [written])

/-- A value starts neither with a blank nor with the end of an array. -/
theorem render_eq_cons (value : Json) :
    ∃ c others, render value = c :: others ∧ Opens c := by
  cases value with
  | null => exact ⟨_, _, rfl, by decide, by decide⟩
  | bool value => cases value <;> exact ⟨_, _, rfl, by decide, by decide⟩
  | number number =>
      obtain ⟨c, others, written, first⟩ := renderNumber_eq_cons number
      refine ⟨c, others, written, ?_⟩
      rcases first with isDigit | rfl
      · exact opens_of_isDigit isDigit
      · exact ⟨by decide, by decide⟩
  | string text => cases text <;> exact ⟨_, _, rfl, by decide, by decide⟩
  | array items => exact ⟨_, _, rfl, by decide, by decide⟩
  | object members => exact ⟨_, _, rfl, by decide, by decide⟩

theorem skipSpace_cons {c : Char} (visible : isSpace c = false) (rest : List Char) :
    skipSpace (c :: rest) = c :: rest := by
  simp [skipSpace, visible]

/-- No white space comes before a value. -/
theorem skipSpace_render (value : Json) (rest : List Char) :
    skipSpace (render value ++ rest) = render value ++ rest := by
  obtain ⟨c, others, written, opens⟩ := render_eq_cons value
  rw [written, List.cons_append, skipSpace_cons opens.1]

theorem closes_renderMoreItems (items : List Json) (rest : List Char) :
    Closes (renderMoreItems items ++ rest) := by
  cases items <;> exact closes_cons (by simp)

theorem closes_renderMoreMembers (members : List (Option String × Json)) (rest : List Char) :
    Closes (renderMoreMembers members ++ rest) := by
  cases members <;> exact closes_cons (by simp)

/-- The name of a number is none of the literal names. -/
theorem scanName_renderNumber (number : JsonNumber) (rest : List Char) :
    scanName (renderNumber number ++ rest) = none := by
  obtain ⟨c, others, written, first⟩ := renderNumber_eq_cons number
  have apart : c ≠ 'n' ∧ c ≠ 't' ∧ c ≠ 'f' := by
    rcases first with isDigit | rfl
    · refine ⟨?_, ?_, ?_⟩ <;> rintro rfl <;> simp at isDigit
    · decide
  simp [scanName, written, afterWord?, apart.1.symm, apart.2.1.symm, apart.2.2.symm]

/-- A number is read back as a value, since it starts with none of the marks of the others. -/
theorem parseValue_number (number : JsonNumber) {rest : List Char} (closes : Closes rest)
    (steps : Nat) :
    parseValue (steps + 1) (renderNumber number ++ rest) = some (.number number, rest) := by
  obtain ⟨c, others, written, first⟩ := renderNumber_eq_cons number
  have unlike : isSpace c = false ∧ c ≠ '"' ∧ c ≠ '[' ∧ c ≠ '\x7b' := by
    rcases first with isDigit | rfl
    · refine ⟨(opens_of_isDigit isDigit).1, ?_, ?_, ?_⟩ <;> rintro rfl <;> simp at isDigit
    · decide
  have named := scanName_renderNumber number rest
  have scanned := scanNumber_render number closes
  rw [written, List.cons_append] at named scanned ⊢
  rw [parseValue, skipSpace_cons unlike.1]
  split
  · rename_i same
    exact absurd (List.cons.inj same).1 unlike.2.1
  · rename_i same
    exact absurd (List.cons.inj same).1 unlike.2.2.1
  · rename_i same
    exact absurd (List.cons.inj same).1 unlike.2.2.2
  · simp [named, scanned]

/-- The first member of an object is read back, and what follows it decides whether another
member is due. -/
theorem parseMembers_quote {name : Option String} {value : Json} {tail rest : List Char}
    {steps : Nat} (first : parseValue steps (render value ++ (tail ++ rest)) =
      some (value, tail ++ rest)) :
    parseMembers (steps + 1) (quote name ++ ':' :: render value ++ tail ++ rest) =
      match skipSpace (tail ++ rest) with
      | ',' :: more =>
        (parseMembers steps more).bind fun parsed => some ((name, value) :: parsed.1, parsed.2)
      | '}' :: after => some ([(name, value)], after)
      | _ => none := by
  obtain ⟨inside, written, scanned⟩ := scanString_quote name
    (':' :: render value ++ (tail ++ rest))
  simp only [List.append_assoc, List.cons_append] at scanned ⊢
  rw [parseMembers, written, List.cons_append, skipSpace_cons rfl]
  simp only [scanned, Option.bind_eq_bind, Option.bind_some, skipSpace_cons (c := ':') rfl]
  rw [first]
  rfl

mutual

/-- A value is read back from the start of a text, given steps enough for its own
characters. -/
theorem parseValue_render : ∀ (value : Json) (rest : List Char) (steps : Nat),
    Closes rest → 2 * (render value).length ≤ steps →
      parseValue steps (render value ++ rest) = some (value, rest)
  | .null, rest, steps, _, enough => by
      obtain ⟨steps, rfl⟩ : ∃ fewer, steps = fewer + 1 :=
        ⟨steps - 1, by simp [render] at enough; omega⟩
      simp [render, parseValue, skipSpace, isSpace, scanName, afterWord?]
  | .bool value, rest, steps, _, enough => by
      obtain ⟨steps, rfl⟩ : ∃ fewer, steps = fewer + 1 :=
        ⟨steps - 1, by cases value <;> simp [render, renderBool] at enough <;> omega⟩
      cases value <;>
        simp [render, renderBool, parseValue, skipSpace, isSpace, scanName, afterWord?]
  | .number value, rest, steps, closes, enough => by
      obtain ⟨c, others, written, _⟩ := renderNumber_eq_cons value
      obtain ⟨steps, rfl⟩ : ∃ fewer, steps = fewer + 1 :=
        ⟨steps - 1, by simp [render, written] at enough; omega⟩
      exact parseValue_number value closes steps
  | .string literal, rest, steps, _, enough => by
      obtain ⟨inside, written, scanned⟩ := scanString_quote literal rest
      obtain ⟨steps, rfl⟩ : ∃ fewer, steps = fewer + 1 :=
        ⟨steps - 1, by simp [render, written] at enough; omega⟩
      simp [render, written, parseValue, skipSpace, isSpace, scanned]
  | .array [], rest, steps, _, enough => by
      obtain ⟨steps, rfl⟩ : ∃ fewer, steps = fewer + 1 :=
        ⟨steps - 1, by simp [render, renderItems] at enough; omega⟩
      simp [render, renderItems, parseValue, skipSpace, isSpace]
  | .array (item :: items), rest, steps, _, enough => by
      obtain ⟨steps, rfl⟩ : ∃ fewer, steps = fewer + 1 :=
        ⟨steps - 1, by simp [render] at enough; omega⟩
      have read := parseItems_render item items rest steps
        (by simp only [render, renderItems, List.length_cons] at enough; omega)
      have start := skipSpace_render item (renderMoreItems items ++ rest)
      obtain ⟨c, others, written, opens⟩ := render_eq_cons item
      simp only [written, List.cons_append, List.append_assoc] at read start
      simp only [render, renderItems, written, List.cons_append, List.append_assoc, parseValue,
        skipSpace_cons (c := '[') rfl, start]
      split
      · rename_i same
        exact absurd (List.cons.inj same).1 opens.2
      · simp [read]
  | .object [], rest, steps, _, enough => by
      obtain ⟨steps, rfl⟩ : ∃ fewer, steps = fewer + 1 :=
        ⟨steps - 1, by simp [render, renderMembers] at enough; omega⟩
      simp [render, renderMembers, parseValue, skipSpace, isSpace]
  | .object ((name, value) :: members), rest, steps, _, enough => by
      obtain ⟨steps, rfl⟩ : ∃ fewer, steps = fewer + 1 :=
        ⟨steps - 1, by simp [render] at enough; omega⟩
      have read := parseMembers_render name value members rest steps
        (by simp only [render, renderMembers, List.length_cons] at enough; omega)
      obtain ⟨inside, written, _⟩ := scanString_quote name
        (':' :: render value ++ renderMoreMembers members ++ rest)
      simp only [written, List.cons_append, List.append_assoc] at read
      simp only [render, renderMembers, written, List.cons_append, List.append_assoc, parseValue,
        skipSpace_cons (c := '\x7b') rfl, skipSpace_cons (c := '"') rfl]
      simp [read]
termination_by value => sizeOf value

/-- The items of an array are read back up to the end of the array. -/
theorem parseItems_render : ∀ (item : Json) (items : List Json) (rest : List Char) (steps : Nat),
    2 * (render item ++ renderMoreItems items).length ≤ steps →
      parseItems steps (render item ++ renderMoreItems items ++ rest) =
        some (item :: items, rest)
  | item, items, rest, steps, enough => by
      obtain ⟨c, others, written, opens⟩ := render_eq_cons item
      obtain ⟨steps, rfl⟩ : ∃ fewer, steps = fewer + 1 :=
        ⟨steps - 1, by simp [written] at enough; omega⟩
      have first := parseValue_render item _ steps
        (closes_renderMoreItems items rest) (by
          cases items <;> simp [renderMoreItems] at enough <;> omega)
      rw [List.append_assoc, parseItems, first]
      cases items with
      | nil => simp [renderMoreItems, skipSpace, isSpace]
      | cons next others =>
          have more := parseItems_render next others rest steps (by
            simp only [renderMoreItems, List.length_append, List.length_cons, written] at enough ⊢
            omega)
          simp only [renderMoreItems, List.cons_append, Option.bind_eq_bind, Option.bind_some,
            skipSpace_cons (c := ',') rfl, more]
termination_by item items => sizeOf item + sizeOf items + 1

/-- The members of an object are read back up to the end of the object. -/
theorem parseMembers_render : ∀ (name : Option String) (value : Json)
    (members : List (Option String × Json)) (rest : List Char) (steps : Nat),
    2 * (quote name ++ ':' :: render value ++ renderMoreMembers members).length ≤ steps →
      parseMembers steps (quote name ++ ':' :: render value ++ renderMoreMembers members ++ rest) =
        some ((name, value) :: members, rest)
  | name, value, [], rest, steps, enough => by
      obtain ⟨inside, written, _⟩ := scanString_quote name []
      obtain ⟨steps, rfl⟩ : ∃ fewer, steps = fewer + 1 :=
        ⟨steps - 1, by simp [written] at enough; omega⟩
      have first := parseValue_render value _ steps
        (closes_renderMoreMembers [] rest) (by
          simp only [written, List.length_append, List.length_cons] at enough; omega)
      rw [parseMembers_quote first]
      simp [renderMoreMembers, skipSpace, isSpace]
  | name, value, (nextName, nextValue) :: others, rest, steps, enough => by
      obtain ⟨inside, written, _⟩ := scanString_quote name []
      obtain ⟨steps, rfl⟩ : ∃ fewer, steps = fewer + 1 :=
        ⟨steps - 1, by simp [written] at enough; omega⟩
      have first := parseValue_render value _ steps
        (closes_renderMoreMembers ((nextName, nextValue) :: others) rest) (by
          simp only [written, List.length_append, List.length_cons] at enough; omega)
      have more := parseMembers_render nextName nextValue others rest steps (by
          simp only [renderMoreMembers, List.length_append, List.length_cons, written] at enough ⊢
          omega)
      simp only [List.append_assoc, List.cons_append] at more
      rw [parseMembers_quote first]
      simp only [renderMoreMembers, List.cons_append, List.append_assoc,
        skipSpace_cons (c := ',') rfl, more, Option.bind_some]
termination_by _ value members => sizeOf value + sizeOf members + 1

end

/-- Every value is read back from its characters. -/
theorem parseChars_render (value : Json) : parseChars (render value) = some value := by
  have read := parseValue_render value [] (2 * (render value).length + 1) closes_nil (by omega)
  rw [List.append_nil] at read
  rw [parseChars, read]
  rfl

/-- Every value is read back from its compact text. -/
theorem parse_compact (value : Json) : parse value.compact = some value := by
  simp [parse, compact, parseChars_render]

/-- Values with the same compact text are equal. -/
theorem compact_injective {first second : Json} (same : first.compact = second.compact) :
    first = second := by
  have read := parse_compact first
  rw [same, parse_compact] at read
  exact (Option.some.inj read).symm

end ConstraintFacets.Json
