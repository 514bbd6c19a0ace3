import ConstraintFacets.Json.Basic

/-! # Records in JSON

A record is read from an object or from an array of its fields in order
(`ConstraintFacets.Json.fields?`). Fields that the record does not have are left
out unread; a field that is given twice makes the record unreadable.

Readers count how many containers may still stand inside each other, and they
know where a value comes from (`ConstraintFacets.Json.Origin`): most values are
read where they stand, but some are held back until it is known what they should
be. What is held back has to be sound as a whole
(`ConstraintFacets.Json.isSound`).
-/

namespace ConstraintFacets.Json

/-- How many containers may stand inside each other in the parts of a text that
are used. -/
def nestingLimit : Nat := 127

/-- Where a value is read: where it stands in its text, or in a part of the text
that was held back. -/
inductive Origin where
  | inPlace
  | heldBack
deriving DecidableEq

/-- Whether a value may be held back: its numbers are in range, its strings and
names denote texts, and its containers nest no deeper than there is room for. -/
def isSound : Nat → Json → Bool
  | _, .null => true
  | _, .bool _ => true
  | _, .number value => value.isFinite
  | _, .string text => text.isSome
  | 0, .array _ => false
  | 0, .object _ => false
  | room + 1, .array items => items.all (isSound room)
  | room + 1, .object members =>
    members.all fun member => member.1.isSome && isSound room member.2

/-- The known fields of a record, in the order in which they are given. Every
name has to denote a text, also one that is not a field. -/
def fields? (names : List String) : Json → Option (List (String × Json))
  | .array items => if items.length ≤ names.length then some (names.zip items) else none
  | .object members => do
    let named ← members.mapM fun member => member.1.map fun name => (name, member.2)
    let known := named.filter fun member => names.contains member.1
    if (known.map Prod.fst).Nodup then some known else none
  | _ => none

/-- Reads a field, if it is given; otherwise the default stands. -/
def fieldOr {α : Type} (fields : List (String × Json)) (name : String) (default : α)
    (read : Json → Option α) : Option α :=
  match fields.lookup name with
  | some value => read value
  | none => some default

/-- Reads a value that may be absent, which is written as `null`. -/
def optional? {α : Type} (read : Json → Option α) : Json → Option (Option α)
  | .null => some none
  | value => (read value).map some

/-- Reads every item of an array that may stand in the given room. -/
def listOf? {α : Type} (read : Nat → Json → Option α) : Nat → Json → Option (List α)
  | room + 1, .array items => items.mapM (read room)
  | _, _ => none

/-- Reads the tag that tells one of several forms by its name. In what was held back,
the place of a form in the list of forms serves for its name. -/
def tag? {α : Type} (origin : Origin) (forms : List α) (name : α → String) : Json → Option α
  | .string text => text.bind fun text => forms.find? fun form => name form = text
  | .number value =>
    match origin, value.toInt? with
    | .heldBack, some (.ofNat place) => forms[place]?
    | _, _ => none
  | _ => none

/-- Reads a name of an enumeration: a string, or an object with that name as its
only member and `null` as its value. In what was held back, an empty object
serves for `null`. -/
def choice? (origin : Origin) : Nat → Json → Option String
  | _, .string text => text
  | _ + 1, .object [(name, .null)] => name
  | _ + 1, .object [(name, .object [])] => if origin = .heldBack then name else none
  | _, _ => none

end ConstraintFacets.Json
