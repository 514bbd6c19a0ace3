import ConstraintFacets.TypeName
import Mathlib.Data.List.TakeWhile

/-! # Names without their type arguments

Erasing the type arguments of a name leaves a name without any
(`ConstraintFacets.TypeName.not_mem_erase`), which is declared just if the whole name is
(`ConstraintFacets.TypeName.isDeclared_erase`). The blanks around the name do not matter
for that, though erasing leaves those before it in their place.
-/

namespace ConstraintFacets

namespace Blank

/-- Blanks behind a text make no difference to what is between its blanks. -/
theorem trim_append_of_blank {blanks : List Char} (areBlank : ∀ c ∈ blanks, isBlank c)
    (text : List Char) : trim (text ++ blanks) = trim text := by
  have nothing : blanks.dropWhile isBlank = [] := List.dropWhile_eq_nil_iff.mpr areBlank
  rw [trim, trim, trimStart, trimStart, List.dropWhile_append]
  split
  · rename_i allBlank
    rw [nothing, List.isEmpty_iff.mp allBlank]
  · exact trimEnd_append_of_blank areBlank _

/-- Trimming the end first makes no difference to trimming both ends. -/
theorem trim_trimEnd (text : List Char) : trim (trimEnd text) = trim text := by
  obtain ⟨blanks, areBlank, same⟩ := trimEnd_append_blanks text
  calc trim (trimEnd text)
      = trim (trimEnd text ++ blanks) := (trim_append_of_blank areBlank _).symm
    _ = trim text := by rw [same]

/-- A character that is not blank stays between what is before and behind it. -/
theorem trim_append_cons {c : Char} (solid : ¬ isBlank c) (front back : List Char) :
    trim (front ++ c :: back) = trimStart front ++ c :: trimEnd back := by
  have kept : (c :: back).dropWhile isBlank = c :: back := List.dropWhile_cons_of_neg solid
  have start : trimStart (front ++ c :: back) = trimStart front ++ c :: back := by
    rw [trimStart, trimStart, List.dropWhile_append]
    split
    · rename_i allBlank
      rw [kept, List.isEmpty_iff.mp allBlank, List.nil_append]
    · rfl
  rw [trim, start, trimEnd_append_cons solid]

theorem mem_of_mem_trimStart {c : Char} {text : List Char} (member : c ∈ trimStart text) :
    c ∈ text :=
  (List.dropWhile_sublist _).subset member

theorem mem_of_mem_trimEnd {c : Char} {text : List Char} (member : c ∈ trimEnd text) :
    c ∈ text := by
  obtain ⟨blanks, -, same⟩ := trimEnd_append_blanks text
  rw [← same]
  exact List.mem_append_left blanks member

theorem trimEnd_of_solid {text : List Char} (solid : ∀ c ∈ text, ¬ isBlank c) :
    trimEnd text = text := by
  obtain ⟨blanks, areBlank, same⟩ := trimEnd_append_blanks text
  have nothing : blanks = [] := by
    apply List.eq_nil_iff_forall_not_mem.mpr
    intro c member
    have kept : c ∈ text := same ▸ List.mem_append_right _ member
    exact solid c kept (areBlank c member)
  rwa [nothing, List.append_nil] at same

/-- Only the blanks before a text without blanks are trimmed. -/
theorem trimStart_append_of_solid {blanks text : List Char} (areBlank : ∀ c ∈ blanks, isBlank c)
    (solid : ∀ c ∈ text, ¬ isBlank c) (nonempty : text ≠ []) (rest : List Char) :
    trimStart (blanks ++ (text ++ rest)) = text ++ rest := by
  obtain ⟨first, others, rfl⟩ := List.exists_cons_of_ne_nil nonempty
  rw [trimStart, List.dropWhile_append_of_pos areBlank, List.cons_append]
  exact List.dropWhile_cons_of_neg (solid first List.mem_cons_self)

end Blank

namespace TypeName

namespace Spelling

theorem erase_of_not_mem {spelling : List Char} (free : '<' ∉ spelling) :
    erase spelling = spelling :=
  if_neg free

/-- The first bracket ends the name, and the blanks before it go with the arguments. -/
theorem erase_append_cons {front : List Char} (free : '<' ∉ front) (back : List Char) :
    erase (front ++ '<' :: back) = Blank.trimEnd front := by
  have kept : ∀ c ∈ front, (c != '<') = true := by
    intro c member
    rw [bne_iff_ne]
    rintro rfl
    exact free member
  rw [erase, if_pos (by simp), List.takeWhile_append_of_pos kept,
    List.takeWhile_cons_of_neg (by simp), List.append_nil]

theorem not_mem_erase (spelling : List Char) : '<' ∉ erase spelling := by
  by_cases arguments : '<' ∈ spelling
  · obtain ⟨front, back, rfl, free⟩ := List.eq_append_cons_of_mem arguments
    rw [erase_append_cons free]
    exact fun member => free (Blank.mem_of_mem_trimEnd member)
  · rwa [erase_of_not_mem arguments]

theorem erase_erase (spelling : List Char) : erase (erase spelling) = erase spelling :=
  erase_of_not_mem (not_mem_erase spelling)

/-- The name between the blanks is the same before and after erasing. -/
theorem erase_trim_erase (spelling : List Char) :
    erase (Blank.trim (erase spelling)) = erase (Blank.trim spelling) := by
  by_cases arguments : '<' ∈ spelling
  · obtain ⟨front, back, rfl, free⟩ := List.eq_append_cons_of_mem arguments
    have freeStart : '<' ∉ Blank.trimStart front :=
      fun member => free (Blank.mem_of_mem_trimStart member)
    have freeTrim : '<' ∉ Blank.trim front :=
      fun member => freeStart (Blank.mem_of_mem_trimEnd member)
    calc erase (Blank.trim (erase (front ++ '<' :: back)))
        = erase (Blank.trim front) := by rw [erase_append_cons free, Blank.trim_trimEnd]
      _ = Blank.trim front := erase_of_not_mem freeTrim
      _ = erase (Blank.trim (front ++ '<' :: back)) := by
          rw [Blank.trim_append_cons (by decide), erase_append_cons freeStart, Blank.trim]
  · rw [erase_of_not_mem arguments]

theorem isDeclared_erase (spelling : List Char) :
    isDeclared (erase spelling) = isDeclared spelling := by
  unfold isDeclared
  rw [erase_trim_erase]

end Spelling

theorem not_mem_erase (name : String) : '<' ∉ (erase name).toList := by
  rw [erase, String.toList_ofList]
  exact Spelling.not_mem_erase name.toList

theorem isDeclared_erase (name : String) : isDeclared (erase name) = isDeclared name := by
  rw [isDeclared, erase, String.toList_ofList]
  exact Spelling.isDeclared_erase name.toList

end TypeName

end ConstraintFacets
