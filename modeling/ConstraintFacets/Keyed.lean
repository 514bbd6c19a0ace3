/-! # Tables in order of first entry

A table maps names to values and remembers the order in which the names first
came in. Entering a name again replaces its value and keeps its place. Tables
are kept as lists of entries; `ConstraintFacets.Keyed.insert` never repeats a
name (`ConstraintFacets.Keyed.nodup_keys_insert`), and a look-up finds the value
entered last (`ConstraintFacets.Keyed.get?_insert`).
-/

namespace ConstraintFacets

/-- The entries of a table, in order of first entry. -/
abbrev Keyed (α : Type) := List (String × α)

namespace Keyed

variable {α : Type}

/-- The names of a table, in order. -/
def keys (table : Keyed α) : List String :=
  table.map Prod.fst

/-- The value of a name, if the table has the name. -/
def get? (table : Keyed α) (key : String) : Option α :=
  List.lookup key table

/-- A table with one more entry. A name that is already there keeps its place
and takes the new value. -/
def insert : Keyed α → String → α → Keyed α
  | [], key, value => [(key, value)]
  | (name, old) :: rest, key, value =>
    if name = key then (name, value) :: rest else (name, old) :: insert rest key value

/-- The table of a sequence of entries, entered one after the other. -/
def ofList (entries : List (String × α)) : Keyed α :=
  entries.foldl (fun table entry => insert table entry.1 entry.2) []

@[simp] theorem keys_nil : keys ([] : Keyed α) = [] := rfl

@[simp] theorem get?_nil (key : String) : get? ([] : Keyed α) key = none := rfl

theorem get?_cons (name key : String) (value : α) (rest : Keyed α) :
    get? ((name, value) :: rest) key = if key = name then some value else get? rest key := by
  by_cases same : key = name
  · simp [get?, same]
  · have differ : (key == name) = false := by simpa using same
    simp [get?, List.lookup_cons, same, differ]

/-- A key is in a table just if a value is found under it. -/
theorem mem_keys_iff {table : Keyed α} {key : String} :
    key ∈ keys table ↔ ∃ value, get? table key = some value := by
  induction table with
  | nil => simp [keys]
  | cons entry rest ih =>
      obtain ⟨name, value⟩ := entry
      by_cases same : key = name
      · simp [keys, get?_cons, same]
      · simpa [keys, get?_cons, same] using ih

/-- A look-up finds the value that was entered last, and entering a name does not
disturb the others. -/
theorem get?_insert (table : Keyed α) (key name : String) (value : α) :
    get? (insert table key value) name = if name = key then some value else get? table name := by
  induction table with
  | nil => simp [insert, get?_cons]
  | cons entry rest ih =>
      obtain ⟨first, old⟩ := entry
      by_cases same : first = key
      · subst same
        by_cases other : name = first <;> simp [insert, get?_cons, other]
      · by_cases here : name = first
        · subst here
          simp [insert, get?_cons, same]
        · simp [insert, get?_cons, same, here, ih]

/-- Entering a name adds it behind the names of the table, unless it is one of
them. -/
theorem keys_insert (table : Keyed α) (key : String) (value : α) :
    keys (insert table key value) =
      if key ∈ keys table then keys table else keys table ++ [key] := by
  induction table with
  | nil => simp [insert, keys]
  | cons entry rest ih =>
      obtain ⟨first, old⟩ := entry
      simp only [keys] at ih
      by_cases same : first = key
      · simp [insert, keys, same]
      · by_cases member : key ∈ List.map Prod.fst rest
        · simp [insert, keys, same, ih, member]
        · have apart : ¬ key = first := fun h => same h.symm
          simp [insert, keys, same, apart, ih, member]

/-- An insertion adds its key and keeps the others. -/
theorem mem_keys_insert {table : Keyed α} {key name : String} {value : α} :
    name ∈ keys (insert table key value) ↔ name = key ∨ name ∈ keys table := by
  rw [keys_insert]
  split
  · rename_i member
    exact ⟨.inr, fun either => either.elim (fun same => same ▸ member) id⟩
  · rw [List.mem_append, List.mem_singleton, or_comm]

/-- A table without repeated names stays so. -/
theorem nodup_keys_insert {table : Keyed α} (distinct : (keys table).Nodup) (key : String)
    (value : α) : (keys (insert table key value)).Nodup := by
  rw [keys_insert]
  split
  · exact distinct
  · rename_i absent
    refine List.nodup_append.mpr ⟨distinct, by simp, ?_⟩
    intro name member other isKey same
    simp only [List.mem_singleton] at isKey
    subst same isKey
    exact absent member

/-- A name that is not in a table comes in behind the others. -/
theorem insert_of_not_mem {table : Keyed α} {key : String} (absent : key ∉ keys table)
    (value : α) : insert table key value = table ++ [(key, value)] := by
  induction table with
  | nil => rfl
  | cons entry rest ih =>
      obtain ⟨name, old⟩ := entry
      simp only [keys, List.map_cons, List.mem_cons, not_or] at absent ih
      rw [insert, if_neg fun same => absent.1 same.symm, ih absent.2, List.cons_append]

/-- A table whose names differ is entered as it is. -/
theorem ofList_of_nodup {entries : List (String × α)} (distinct : (keys entries).Nodup) :
    ofList entries = entries := by
  have entered : ∀ table : Keyed α, (keys (table ++ entries)).Nodup →
      entries.foldl (fun table entry => insert table entry.1 entry.2) table = table ++ entries := by
    induction entries with
    | nil => exact fun table _ => (List.append_nil table).symm
    | cons entry rest ih =>
        intro table apart
        obtain ⟨name, value⟩ := entry
        have absent : name ∉ keys table := by
          simp only [keys, List.map_append, List.map_cons] at apart ⊢
          exact fun early => (List.nodup_append.mp apart).2.2 name early name (by simp) rfl
        have next : table ++ (name, value) :: rest = table ++ [(name, value)] ++ rest := by simp
        rw [next] at apart ⊢
        rw [List.foldl_cons, insert_of_not_mem absent]
        exact ih (List.nodup_cons.mp distinct).2 _ apart
  exact entered [] distinct

end Keyed

end ConstraintFacets
