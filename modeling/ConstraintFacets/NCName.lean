import ConstraintFacets.Error
import ConstraintFacets.Text.Character

/-! # Names without colons

The local names of schema types (`ConstraintFacets.NCName.isValid`): a letter or
an underscore first, then also digits, hyphens and points. Letters are those of
ASCII and the letters from U+00C0 to U+00F6. So the characters of a name are known by
their code points (`ConstraintFacets.NCName.isStart_iff_toNat`,
`ConstraintFacets.NCName.isPart_iff_toNat`).
-/

namespace ConstraintFacets.NCName

/-- Whether a name may start with a character. -/
def isStart (c : Char) : Bool :=
  c.isAlpha || c == '_' || (0xC0 ≤ c.toNat && c.toNat ≤ 0xD6) ||
    (0xD8 ≤ c.toNat && c.toNat ≤ 0xF6)

/-- Whether a character may stand in a name. -/
def isPart (c : Char) : Bool :=
  isStart c || c == '-' || c == '.' || c.isDigit

/-- Whether characters form a name. -/
def isName : List Char → Bool
  | [] => false
  | c :: rest => isStart c && rest.all isPart

/-- Whether a text is a name. -/
def isValid (name : String) : Bool :=
  isName name.toList

/-- Checks that a text is a name. -/
def validate (name : String) : Except Error Unit :=
  if isValid name then .ok () else .error (.name (.notNCName name))

variable {c : Char}

/-- The characters that a name may start with, by their code points. -/
theorem isStart_iff_toNat : isStart c = true ↔
    (0x41 ≤ c.toNat ∧ c.toNat ≤ 0x5A) ∨ (0x61 ≤ c.toNat ∧ c.toNat ≤ 0x7A) ∨ c.toNat = 0x5F ∨
      (0xC0 ≤ c.toNat ∧ c.toNat ≤ 0xD6) ∨ (0xD8 ≤ c.toNat ∧ c.toNat ≤ 0xF6) := by
  have underscore : (c == '_') = true ↔ c.toNat = 0x5F := by
    rw [beq_iff_eq, ← Char.toNat_inj]
    rfl
  simp only [isStart, Bool.or_eq_true, Bool.and_eq_true, decide_eq_true_eq, isAlpha_iff_toNat,
    underscore, or_assoc]

/-- Hyphens, points and digits may follow in a name besides what may start one. -/
theorem isPart_iff_toNat : isPart c = true ↔
    isStart c = true ∨ c.toNat = 0x2D ∨ c.toNat = 0x2E ∨ (0x30 ≤ c.toNat ∧ c.toNat ≤ 0x39) := by
  have hyphen : (c == '-') = true ↔ c.toNat = 0x2D := by
    rw [beq_iff_eq, ← Char.toNat_inj]
    rfl
  have point : (c == '.') = true ↔ c.toNat = 0x2E := by
    rw [beq_iff_eq, ← Char.toNat_inj]
    rfl
  have digit : c.isDigit = true ↔ 0x30 ≤ c.toNat ∧ c.toNat ≤ 0x39 := Char.isDigit_iff_toNat
  simp only [isPart, Bool.or_eq_true, hyphen, point, digit, or_assoc]

/-- The characters of names come after the blank, and none comes after U+00F6. -/
theorem toNat_of_isPart (part : isPart c = true) : 0x20 < c.toNat ∧ c.toNat ≤ 0xF6 := by
  rw [isPart_iff_toNat, isStart_iff_toNat] at part
  omega

/-- Every character of a name may stand in one, the first included. -/
theorem isPart_of_mem {name : List Char} (named : isName name = true) (member : c ∈ name) :
    isPart c = true := by
  cases name with
  | nil => cases member
  | cons first rest =>
      rw [isName, Bool.and_eq_true, List.all_eq_true] at named
      obtain ⟨starts, parts⟩ := named
      rcases List.mem_cons.mp member with rfl | later
      · exact isPart_iff_toNat.mpr (.inl starts)
      · exact parts c later

end ConstraintFacets.NCName
