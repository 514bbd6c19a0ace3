/-! # Characters

Names in annotations may stand between blanks. A character is blank if Unicode
gives it the property `White_Space`; this module holds that set
(`ConstraintFacets.Blank.ranges`) and removes blanks from the ends of a text
(`ConstraintFacets.Blank.trim`). What is removed is blank throughout
(`ConstraintFacets.Blank.trimEnd_append_blanks`), and what is left ends in no
blank (`ConstraintFacets.Blank.getLast?_trimEnd`). The letters of names are those of
ASCII (`ConstraintFacets.isAlpha_iff_toNat`).
-/

namespace ConstraintFacets

/-- The letters of ASCII lie in two ranges of code points. -/
theorem isAlpha_iff_toNat {c : Char} : c.isAlpha = true ↔
    (0x41 ≤ c.toNat ∧ c.toNat ≤ 0x5A) ∨ (0x61 ≤ c.toNat ∧ c.toNat ≤ 0x7A) := by
  change (decide ('A'.val ≤ c.val ∧ c.val ≤ 'Z'.val) ||
    decide ('a'.val ≤ c.val) && decide (c.val ≤ 'z'.val)) = true ↔ _
  simp only [Bool.or_eq_true, Bool.and_eq_true, decide_eq_true_eq, UInt32.le_iff_toNat_le]
  rfl

namespace Blank

/-- The blank characters, as inclusive ranges of code points in increasing order. -/
def ranges : List (Nat × Nat) :=
  [(0x09, 0x0D), (0x20, 0x20), (0x85, 0x85), (0xA0, 0xA0), (0x1680, 0x1680),
   (0x2000, 0x200A), (0x2028, 0x2029), (0x202F, 0x202F), (0x205F, 0x205F), (0x3000, 0x3000)]

/-- Whether a character is blank. -/
def isBlank (c : Char) : Bool :=
  ranges.any fun range => range.1 ≤ c.toNat && c.toNat ≤ range.2

/-- A text without the blanks at its start. -/
def trimStart (text : List Char) : List Char :=
  text.dropWhile isBlank

/-- A text without the blanks at its end. -/
def trimEnd : List Char → List Char
  | [] => []
  | c :: rest =>
    match trimEnd rest with
    | [] => if isBlank c then [] else [c]
    | kept => c :: kept

/-- A text without the blanks at its two ends. -/
def trim (text : List Char) : List Char :=
  trimEnd (trimStart text)

/-- What is cut off at the end is blank throughout, and nothing else is lost. -/
theorem trimEnd_append_blanks (text : List Char) :
    ∃ blanks, (∀ c ∈ blanks, isBlank c) ∧ trimEnd text ++ blanks = text := by
  induction text with
  | nil => exact ⟨[], by simp, rfl⟩
  | cons c rest ih =>
      obtain ⟨blanks, areBlank, same⟩ := ih
      cases kept : trimEnd rest with
      | nil =>
          rw [kept, List.nil_append] at same
          subst same
          by_cases blank : isBlank c
          · exact ⟨c :: blanks, by simpa [blank] using areBlank, by simp [trimEnd, kept, blank]⟩
          · exact ⟨blanks, areBlank, by simp [trimEnd, kept, blank]⟩
      | cons d others =>
          refine ⟨blanks, areBlank, ?_⟩
          simp only [trimEnd, kept, List.cons_append]
          rw [kept, List.cons_append] at same
          rw [same]

/-- A trimmed text does not end in a blank. -/
theorem getLast?_trimEnd (text : List Char) : ∀ c ∈ (trimEnd text).getLast?, ¬ isBlank c := by
  induction text with
  | nil => simp [trimEnd]
  | cons c rest ih =>
      cases kept : trimEnd rest with
      | nil =>
          by_cases blank : isBlank c <;> simp [trimEnd, kept, blank]
      | cons d others =>
          simp only [trimEnd, kept, List.getLast?_cons_cons]
          rw [kept] at ih
          exact ih

/-- Nothing is cut off before a character that is not blank. -/
theorem trimEnd_append_cons {c : Char} (solid : ¬ isBlank c) (front back : List Char) :
    trimEnd (front ++ c :: back) = front ++ c :: trimEnd back := by
  induction front with
  | nil =>
      cases kept : trimEnd back with
      | nil => simp [trimEnd, kept, solid]
      | cons d others => simp [trimEnd, kept]
  | cons d rest ih =>
      rw [List.cons_append, trimEnd, ih]
      cases rest <;> rfl

/-- Blanks at the end make no difference to what is left. -/
theorem trimEnd_append_of_blank {blanks : List Char} (areBlank : ∀ c ∈ blanks, isBlank c)
    (text : List Char) : trimEnd (text ++ blanks) = trimEnd text := by
  have nothing : trimEnd blanks = [] := by
    induction blanks with
    | nil => rfl
    | cons c rest ih =>
        rw [List.forall_mem_cons] at areBlank
        simp [trimEnd, ih areBlank.2, areBlank.1]
  induction text with
  | nil => exact nothing
  | cons c rest ih => rw [List.cons_append, trimEnd, trimEnd, ih]

end Blank

end ConstraintFacets
