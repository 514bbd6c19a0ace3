import ConstraintFacets.SchemaType
import Mathlib.Logic.Basic

/-! # What the text of a name tells

A qualified name is shown in full, with its namespace in braces, or with the conventional
prefix of its namespace. Nothing in a namespace is escaped, so a brace in a local name may
make two names look alike. The local name of a schema type is a name without colons, which
has no braces either. So the last brace of a full name ends its namespace, the last colon of
a prefixed name ends its prefix, and schema types that are shown alike have the same
qualified name (`ConstraintFacets.SchemaType.shown_alike_iff`).
-/

namespace ConstraintFacets

section Mark

variable {mark : Char} {front other back rest : List Char}

/-- Read from its end, a text is taken up to the last mark. -/
theorem takeWhile_reverse_append_cons (front : List Char) (free : mark ∉ back) :
    (front ++ mark :: back).reverse.takeWhile (fun c => decide (c ≠ mark)) = back.reverse := by
  have kept : ∀ c ∈ back.reverse, decide (c ≠ mark) = true := by
    intro c member
    rw [decide_eq_true_eq]
    rintro rfl
    exact free (List.mem_reverse.mp member)
  rw [List.reverse_append, List.reverse_cons, List.append_assoc,
    List.takeWhile_append_of_pos kept, List.singleton_append,
    List.takeWhile_cons_of_neg (by simp), List.append_nil]

/-- A text is divided in one way at its last mark. -/
theorem append_mark_inj (free : mark ∉ back) (alsoFree : mark ∉ rest)
    (same : front ++ mark :: back = other ++ mark :: rest) : front = other ∧ back = rest := by
  have backs : back.reverse = rest.reverse := by
    rw [← takeWhile_reverse_append_cons front free, same,
      takeWhile_reverse_append_cons other alsoFree]
  obtain rfl := List.reverse_inj.mp backs
  exact ⟨List.append_cancel_right same, rfl⟩

end Mark

namespace QName

variable {name first second : QName} {short : String}

/-- Namespace and local name determine a qualified name. -/
theorem eq_of_parts (uris : first.uri = second.uri)
    (localNames : first.localName = second.localName) : first = second := by
  cases first
  cases second
  cases uris
  cases localNames
  rfl

/-- A name without a namespace is shown as its local name. -/
theorem text_of_unqualified (unqualified : name.uri = "") : name.text = name.localName := by
  rw [text, isUnqualified, unqualified]
  rfl

/-- A name in a namespace is shown with the namespace in braces before it. -/
theorem toList_text_of_qualified (qualified : name.uri ≠ "") :
    name.text.toList = ('\x7b' :: name.uri.toList) ++ '\x7d' :: name.localName.toList := by
  have nonempty : name.isUnqualified = false := by
    simpa [isUnqualified] using qualified
  rw [text, nonempty]
  simp

/-- If the local name has no brace, a brace shows that there is a namespace. -/
theorem brace_mem_text_iff (plain : '\x7d' ∉ name.localName.toList) :
    '\x7d' ∈ name.text.toList ↔ name.uri ≠ "" := by
  by_cases unqualified : name.uri = ""
  · rw [text_of_unqualified unqualified]
    simp [plain, unqualified]
  · rw [toList_text_of_qualified unqualified]
    simp [unqualified]

/-- Names with plain local names are told apart by their texts. -/
theorem eq_of_text_eq (plain : '\x7d' ∉ first.localName.toList)
    (alsoPlain : '\x7d' ∉ second.localName.toList) (same : first.text = second.text) :
    first = second := by
  have alike : first.uri ≠ "" ↔ second.uri ≠ "" := by
    rw [← brace_mem_text_iff plain, ← brace_mem_text_iff alsoPlain, same]
  by_cases unqualified : first.uri = ""
  · have alsoUnqualified : second.uri = "" := not_not.mp fun qualified =>
      alike.mpr qualified unqualified
    rw [text_of_unqualified unqualified, text_of_unqualified alsoUnqualified] at same
    exact eq_of_parts (unqualified.trans alsoUnqualified.symm) same
  · have texts := congrArg String.toList same
    rw [toList_text_of_qualified unqualified,
      toList_text_of_qualified (alike.mp unqualified)] at texts
    obtain ⟨fronts, localNames⟩ := append_mark_inj plain alsoPlain texts
    obtain ⟨-, uris⟩ := List.cons.inj fronts
    exact eq_of_parts (String.toList_injective uris) (String.toList_injective localNames)

/-- With a brace in a local name, different names may have the same text. -/
example : (QName.mk "a" "b\x7dc").text = (QName.mk "a\x7db" "c").text := by decide

/-- A prefixed name has the prefix of its namespace, a colon and the local name. -/
theorem prefixed?_eq_some_iff : name.prefixed? = some short ↔
    ∃ front, conventionalPrefix? name.uri = some front ∧
      short.toList = front.toList ++ ':' :: name.localName.toList := by
  rw [prefixed?, Option.map_eq_some_iff]
  refine exists_congr fun front => and_congr_right fun _ => ?_
  rw [← String.toList_inj, eq_comm]
  simp

/-- A conventional prefix stands for one namespace. -/
theorem uri_eq_of_conventionalPrefix? {uri other front : String}
    (bound : conventionalPrefix? uri = some front)
    (alsoBound : conventionalPrefix? other = some front) : uri = other := by
  have known : ∀ {uri : String}, conventionalPrefix? uri = some front →
      uri = schemaNamespace ∧ front = "xs" ∨ uri = attachmentNamespace ∧ front = "swa" := by
    intro uri bound
    unfold conventionalPrefix? at bound
    split at bound
    · exact .inl ⟨‹_›, (Option.some.inj bound).symm⟩
    · split at bound
      · exact .inr ⟨‹_›, (Option.some.inj bound).symm⟩
      · cases bound
  rcases known bound with ⟨rfl, rfl⟩ | ⟨rfl, rfl⟩ <;>
    rcases known alsoBound with ⟨rfl, short⟩ | ⟨rfl, short⟩
  · rfl
  · exact absurd short (by decide)
  · exact absurd short (by decide)
  · rfl

/-- Names with local names without colons are told apart by their prefixed forms. -/
theorem eq_of_prefixed?_eq (plain : ':' ∉ first.localName.toList)
    (alsoPlain : ':' ∉ second.localName.toList) (shown : first.prefixed? = some short)
    (alsoShown : second.prefixed? = some short) : first = second := by
  obtain ⟨front, bound, spelled⟩ := prefixed?_eq_some_iff.mp shown
  obtain ⟨other, alsoBound, alsoSpelled⟩ := prefixed?_eq_some_iff.mp alsoShown
  obtain ⟨fronts, localNames⟩ :=
    append_mark_inj plain alsoPlain (spelled.symm.trans alsoSpelled)
  obtain rfl := String.toList_injective fronts
  exact eq_of_parts (uri_eq_of_conventionalPrefix? bound alsoBound)
    (String.toList_injective localNames)

end QName

namespace SchemaType

/-- No brace stands in the local name of a schema type. -/
theorem brace_not_mem_localName (type : SchemaType) :
    '\x7d' ∉ type.qualifiedName.localName.toList := fun member =>
  Bool.noConfusion (NCName.isPart_of_mem (SchemaType.isValid_localName type) member)

/-- **Types that are shown alike.** Two schema types, restrictions included, have the same
name in full if and only if they have the same qualified name. They have the same prefixed
name if and only if they have the same qualified name and it has a prefixed form. -/
theorem shown_alike_iff (first second : SchemaType) :
    (first.qualifiedName.text = second.qualifiedName.text ↔
      first.qualifiedName = second.qualifiedName) ∧
    ((∃ short, first.qualifiedName.prefixed? = some short ∧
        second.qualifiedName.prefixed? = some short) ↔
      first.qualifiedName = second.qualifiedName ∧ first.qualifiedName.prefixed?.isSome) := by
  refine ⟨⟨?_, congrArg QName.text⟩, ?_, ?_⟩
  · apply QName.eq_of_text_eq
    · exact first.brace_not_mem_localName
    · exact second.brace_not_mem_localName
  · intro alike
    obtain ⟨short, shown, alsoShown⟩ := alike
    refine ⟨?_, Option.isSome_of_eq_some shown⟩
    apply QName.eq_of_prefixed?_eq _ _ shown alsoShown
    · exact SchemaType.colon_not_mem_localName first
    · exact SchemaType.colon_not_mem_localName second
  · intro named
    obtain ⟨same, prefixed⟩ := named
    obtain ⟨short, shown⟩ := Option.isSome_iff_exists.mp prefixed
    exact ⟨short, shown, same ▸ shown⟩

end SchemaType

end ConstraintFacets
