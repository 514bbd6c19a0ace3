import ConstraintFacets.Proofs.ExplicitType.PackageTypes

/-! # Names without colons and their production

The production of names in XML lists the characters that a name may start with, and those
that may follow, by ranges of code points; a name without colons takes all of them but the
colon (`ConstraintFacets.NCName.Produced`). The recognizer of names knows the first of these
ranges only. Whatever it accepts is a name of the production, and it accepts a name of the
production if and only if the characters of the name come no later than these ranges and
none is a middle dot (`ConstraintFacets.NCName.isValid_iff_produced`).
-/

namespace ConstraintFacets.NCName

/-- A character lies in one of some ranges of code points, ends included. -/
def LiesIn (ranges : List (Nat × Nat)) (c : Char) : Prop :=
  ∃ range ∈ ranges, range.1 ≤ c.toNat ∧ c.toNat ≤ range.2

instance (ranges : List (Nat × Nat)) (c : Char) : Decidable (LiesIn ranges c) :=
  inferInstanceAs (Decidable (∃ range ∈ ranges, range.1 ≤ c.toNat ∧ c.toNat ≤ range.2))

/-- The characters that a name of XML may start with. -/
def nameStarts : List (Nat × Nat) :=
  [(0x3A, 0x3A), (0x41, 0x5A), (0x5F, 0x5F), (0x61, 0x7A), (0xC0, 0xD6), (0xD8, 0xF6),
   (0xF8, 0x2FF), (0x370, 0x37D), (0x37F, 0x1FFF), (0x200C, 0x200D), (0x2070, 0x218F),
   (0x2C00, 0x2FEF), (0x3001, 0xD7FF), (0xF900, 0xFDCF), (0xFDF0, 0xFFFD), (0x10000, 0xEFFFF)]

/-- The characters that may follow in a name of XML. -/
def nameParts : List (Nat × Nat) :=
  nameStarts ++ [(0x2D, 0x2D), (0x2E, 0x2E), (0x30, 0x39), (0xB7, 0xB7), (0x300, 0x36F),
    (0x203F, 0x2040)]

/-- Characters are a name of the production: the first one may start a name, the others may
follow, and none is a colon. -/
inductive Produced : List Char → Prop where
  | name {first : Char} {rest : List Char} (starts : LiesIn nameStarts first ∧ first ≠ ':')
      (follow : ∀ c ∈ rest, LiesIn nameParts c ∧ c ≠ ':') : Produced (first :: rest)

/-- A character comes no later than the ranges that the recognizer knows, and is not the
middle dot. -/
def Covered (c : Char) : Prop :=
  c.toNat ≤ 0xF6 ∧ c.toNat ≠ 0xB7

variable {c : Char} {name : List Char}

theorem not_liesIn_nil : ¬ LiesIn [] c := by
  simp [LiesIn]

theorem liesIn_cons {range : Nat × Nat} {ranges : List (Nat × Nat)} :
    LiesIn (range :: ranges) c ↔
      (range.1 ≤ c.toNat ∧ c.toNat ≤ range.2) ∨ LiesIn ranges c := by
  simp only [LiesIn, List.mem_cons, exists_eq_or_imp]

theorem liesIn_append {ranges others : List (Nat × Nat)} :
    LiesIn (ranges ++ others) c ↔ LiesIn ranges c ∨ LiesIn others c := by
  simp only [LiesIn, List.mem_append, or_and_right, exists_or]

theorem ne_colon_iff : c ≠ ':' ↔ c.toNat ≠ 0x3A := by
  rw [ne_eq, ne_eq, ← Char.toNat_inj]
  rfl

/-- The recognizer lets a name start with the covered characters that the production lets it
start with. -/
theorem isStart_iff_covered :
    isStart c = true ↔ (LiesIn nameStarts c ∧ c ≠ ':') ∧ Covered c := by
  rw [isStart_iff_toNat, ne_colon_iff]
  simp only [nameStarts, liesIn_cons, not_liesIn_nil, or_false, Covered]
  omega

/-- The recognizer lets the covered characters follow that the production lets follow. -/
theorem isPart_iff_covered :
    isPart c = true ↔ (LiesIn nameParts c ∧ c ≠ ':') ∧ Covered c := by
  rw [isPart_iff_toNat, isStart_iff_toNat, ne_colon_iff, nameParts, liesIn_append]
  simp only [nameStarts, liesIn_cons, not_liesIn_nil, or_false, Covered]
  omega

/-- The recognizer accepts the names of the production all of whose characters are covered. -/
theorem isName_iff_produced :
    isName name = true ↔ Produced name ∧ ∀ c ∈ name, Covered c := by
  cases name with
  | nil => exact ⟨nofun, nofun⟩
  | cons first rest =>
    rw [isName, Bool.and_eq_true, List.all_eq_true, List.forall_mem_cons, isStart_iff_covered]
    constructor
    · intro accepted
      obtain ⟨⟨starts, covered⟩, parts⟩ := accepted
      refine ⟨.name starts fun c member => ?_, covered, fun c member => ?_⟩
      · exact (isPart_iff_covered.mp (parts c member)).1
      · exact (isPart_iff_covered.mp (parts c member)).2
    · intro produced
      obtain ⟨⟨starts, follow⟩, covered, others⟩ := produced
      refine ⟨⟨starts, covered⟩, fun c member => ?_⟩
      exact isPart_iff_covered.mpr ⟨follow c member, others c member⟩

/-- A type is specified by a name just if the name is recognized. -/
theorem exists_new_iff {localName uri : String} :
    (∃ type, SpecifiedType.new localName uri = .ok type ∧ type.qualifiedName = ⟨uri, localName⟩) ↔
      isValid localName = true := by
  constructor
  · intro specified
    obtain ⟨type, isType, -⟩ := specified
    obtain ⟨rfl, -⟩ := SpecifiedType.new_eq_ok_iff.mp isType
    exact type.valid
  · intro valid
    exact ⟨⟨localName, uri, valid⟩, SpecifiedType.new_eq_ok_iff.mpr ⟨rfl, rfl⟩, rfl⟩

/-- **Names of the production.** A text is recognized as a name, and may name a specified type
in any namespace, if and only if it is a name of the production and its characters are
covered. So the local name of every schema type, on which a fragment bases a restriction, is
a name of the production. -/
theorem isValid_iff_produced (name uri : String) :
    (isValid name = true ↔ Produced name.toList ∧ ∀ c ∈ name.toList, Covered c) ∧
    ((∃ type, SpecifiedType.new name uri = .ok type ∧ type.qualifiedName = ⟨uri, name⟩) ↔
      Produced name.toList ∧ ∀ c ∈ name.toList, Covered c) ∧
    ∀ type : SchemaType, Produced type.qualifiedName.localName.toList := by
  refine ⟨isName_iff_produced, exists_new_iff.trans isName_iff_produced, fun type => ?_⟩
  exact (isName_iff_produced.mp (SchemaType.isValid_localName type)).1

/-- The Danish word for a size is a name of the production that is not recognized. -/
theorem not_isValid_storrelse :
    Produced "størrelse".toList ∧ isValid "størrelse" = false ∧
    SpecifiedType.new "størrelse" schemaNamespace = .error (.name (.notNCName "størrelse")) := by
  have spelled : "størrelse".toList = ['s', 't', 'ø', 'r', 'r', 'e', 'l', 's', 'e'] := by decide
  have follow : ['t', 'ø', 'r', 'r', 'e', 'l', 's', 'e'].all
      (fun c => decide (LiesIn nameParts c ∧ c ≠ ':')) = true := by decide
  have refused : isValid "størrelse" = false := by decide
  refine ⟨?_, refused, ?_⟩
  · rw [spelled]
    apply Produced.name (by decide)
    exact fun c member => of_decide_eq_true (List.all_eq_true.mp follow c member)
  · rw [SpecifiedType.new_eq_error_iff, refused]
    exact ⟨Bool.false_ne_true, rfl⟩

end ConstraintFacets.NCName
