/-! # Sets of names

A set of names is its list of members in strictly increasing order of code
points, so that two sets with the same members are equal
(`ConstraintFacets.NameSet.ext`) and a set is always written in one way.
-/

namespace ConstraintFacets

/-- A finite set of names, kept in strictly increasing order. -/
structure NameSet where
  /-- The members in increasing order of code points. -/
  names : List String
  /-- The members increase strictly; none is repeated. -/
  increasing : names.Pairwise (· < ·)
deriving DecidableEq

namespace NameSet

instance : Membership String NameSet where
  mem names name := name ∈ names.names

instance (name : String) (names : NameSet) : Decidable (name ∈ names) :=
  inferInstanceAs (Decidable (name ∈ names.names))

/-- The set without members. -/
def empty : NameSet := ⟨[], .nil⟩

instance : EmptyCollection NameSet := ⟨empty⟩

/-- Whether a set has no members. -/
def isEmpty (names : NameSet) : Bool :=
  names.names.isEmpty

/-- Puts a name into its place in an increasing list. -/
def place (name : String) : List String → List String
  | [] => [name]
  | head :: rest =>
    if name < head then name :: head :: rest
    else if head < name then head :: place name rest
    else head :: rest

theorem mem_place {name other : String} {names : List String} :
    other ∈ place name names ↔ other = name ∨ other ∈ names := by
  induction names with
  | nil => simp [place]
  | cons head rest ih =>
      unfold place
      split
      · simp
      · split
        · simp only [List.mem_cons, ih]
          constructor
          · rintro (here | new | member) <;> simp_all
          · rintro (new | here | member) <;> simp_all
        · rename_i notLess notGreater
          have same : name = head := String.le_antisymm notGreater notLess
          simp [same]

/-- A name that is put into its place keeps a list increasing; one that is there is not
repeated. -/
theorem pairwise_place {name : String} {names : List String}
    (increasing : names.Pairwise (· < ·)) : (place name names).Pairwise (· < ·) := by
  induction names with
  | nil => simp [place]
  | cons head rest ih =>
      have first : ∀ other ∈ rest, head < other := fun _ => List.rel_of_pairwise_cons increasing
      have others := List.Pairwise.of_cons increasing
      unfold place
      split
      · rename_i less
        refine List.Pairwise.cons ?_ increasing
        intro other member
        rcases List.mem_cons.mp member with rfl | member
        · exact less
        · exact String.lt_trans less (first other member)
      · split
        · rename_i greater
          refine List.Pairwise.cons ?_ (ih others)
          intro other member
          rcases mem_place.mp member with rfl | member
          · exact greater
          · exact first other member
        · exact increasing

/-- A set with one more member. -/
def insert (names : NameSet) (name : String) : NameSet :=
  ⟨place name names.names, pairwise_place names.increasing⟩

/-- The set of the names of a list. -/
def ofList (names : List String) : NameSet :=
  names.foldl insert empty

@[simp] theorem not_mem_empty (name : String) : ¬ name ∈ empty :=
  List.not_mem_nil

/-- The members of a larger set are the new name and those from before. -/
@[simp] theorem mem_insert {names : NameSet} {name other : String} :
    other ∈ names.insert name ↔ other = name ∨ other ∈ names :=
  mem_place

/-- Two sets with the same members are equal. -/
theorem ext {first second : NameSet} (same : ∀ name, name ∈ first ↔ name ∈ second) :
    first = second := by
  obtain ⟨names, increasing⟩ := first
  obtain ⟨others, alsoIncreasing⟩ := second
  have members : ∀ name, name ∈ names ↔ name ∈ others := same
  congr
  clear same
  induction names generalizing others with
  | nil =>
      cases others with
      | nil => rfl
      | cons head rest => exact absurd ((members head).mpr (by simp)) (by simp)
  | cons head rest ih =>
      cases others with
      | nil => exact absurd ((members head).mp (by simp)) (by simp)
      | cons first others =>
          have above : ∀ name ∈ rest, head < name := fun _ => List.rel_of_pairwise_cons increasing
          have alsoAbove : ∀ name ∈ others, first < name :=
            fun _ => List.rel_of_pairwise_cons alsoIncreasing
          have heads : head = first := by
            rcases List.mem_cons.mp ((members head).mp (by simp)) with here | there
            · exact here
            · rcases List.mem_cons.mp ((members first).mpr (by simp)) with here | below
              · exact here.symm
              · exact absurd (String.lt_trans (above _ below) (alsoAbove _ there))
                  (String.lt_irrefl _)
          subst heads
          congr 1
          refine ih (List.Pairwise.of_cons increasing) others
            (List.Pairwise.of_cons alsoIncreasing) ?_
          intro name
          have both := members name
          simp only [List.mem_cons] at both
          constructor
          · intro member
            rcases both.mp (.inr member) with rfl | found
            · exact absurd (above _ member) (String.lt_irrefl _)
            · exact found
          · intro member
            rcases both.mpr (.inr member) with rfl | found
            · exact absurd (alsoAbove _ member) (String.lt_irrefl _)
            · exact found

/-- A name is in the set of a list if it is in the list. -/
@[simp] theorem mem_ofList {names : List String} {name : String} :
    name ∈ ofList names ↔ name ∈ names := by
  suffices grown : ∀ start : NameSet, name ∈ names.foldl insert start ↔
      name ∈ start ∨ name ∈ names by
    simpa [ofList] using grown empty
  induction names with
  | nil => simp
  | cons head rest ih =>
      intro start
      simp only [List.foldl_cons, ih, mem_insert, List.mem_cons]
      constructor
      · rintro ((new | member) | member) <;> simp_all
      · rintro (member | new | member) <;> simp_all

end NameSet

end ConstraintFacets
