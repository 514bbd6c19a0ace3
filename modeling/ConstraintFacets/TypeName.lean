import ConstraintFacets.Error
import ConstraintFacets.Text.Character

/-! # Type names

Annotations and accessors name types of the Java language by their spelling, with
packages before the name, type arguments in angle brackets behind it, and pairs
of square brackets for arrays. This module tells declared types (classes,
interfaces, enumerations) from primitive and array types
(`ConstraintFacets.TypeName.isDeclared`) and takes names apart. The functions on
spellings, which are lists of characters, do the work.
-/

namespace ConstraintFacets.TypeName

namespace Spelling

/-- Whether an identifier may start with a character. -/
def isIdentifierStart (c : Char) : Bool :=
  c.isAlpha || c == '_' || c == '$'

/-- Whether a character may stand in an identifier. -/
def isIdentifierPart (c : Char) : Bool :=
  isIdentifierStart c || c.isDigit

/-- Whether a spelling is one identifier. -/
def isIdentifier : List Char → Bool
  | [] => false
  | c :: rest => isIdentifierStart c && rest.all isIdentifierPart

/-- The keywords of the primitive types and of `void`. -/
def primitives : List String :=
  ["boolean", "byte", "char", "short", "int", "long", "float", "double", "void"]

/-- Whether a spelling is the keyword of a primitive type, perhaps between
blanks. -/
def isPrimitive (spelling : List Char) : Bool :=
  primitives.contains (String.ofList (Blank.trim spelling))

/-- Whether a spelling ends in the brackets of an array type, perhaps before
blanks. -/
def isArray (spelling : List Char) : Bool :=
  List.isSuffixOf ['[', ']'] (Blank.trimEnd spelling)

/-- A spelling without its type arguments and the blanks before them. A spelling
without type arguments stays as it is. -/
def erase (spelling : List Char) : List Char :=
  if '<' ∈ spelling then Blank.trimEnd (spelling.takeWhile (· != '<')) else spelling

/-- The parts of a spelling between its dots. -/
def segments : List Char → List (List Char)
  | [] => [[]]
  | c :: rest =>
    if c = '.' then [] :: segments rest
    else
      match segments rest with
      | [] => [[c]]
      | first :: others => (c :: first) :: others

/-- Whether a spelling names a declared type: identifiers between dots, perhaps
with type arguments behind them and with blanks around, but no primitive type. -/
def isDeclared (spelling : List Char) : Bool :=
  let raw := erase (Blank.trim spelling)
  !raw.isEmpty && !isPrimitive raw && !isArray raw && (segments raw).all isIdentifier

/-- The parts of a spelling before and behind its last dot. -/
def splitLast : List Char → Option (List Char × List Char)
  | [] => none
  | c :: rest =>
    match splitLast rest with
    | some (front, back) => some (c :: front, back)
    | none => if c = '.' then some ([], rest) else none

end Spelling

/-- Whether a name is one identifier. -/
def isIdentifier (name : String) : Bool :=
  Spelling.isIdentifier name.toList

/-- Whether a name is the keyword of a primitive type. -/
def isPrimitive (name : String) : Bool :=
  Spelling.isPrimitive name.toList

/-- Whether a name is that of an array type. -/
def isArray (name : String) : Bool :=
  Spelling.isArray name.toList

/-- Whether a name is that of a declared type. -/
def isDeclared (name : String) : Bool :=
  Spelling.isDeclared name.toList

/-- Checks that a name is that of a declared type. -/
def validate (name : String) : Except Error Unit :=
  if isDeclared name then .ok () else .error (.name (.notDeclaredType name))

/-- A name without its type arguments. -/
def erase (name : String) : String :=
  String.ofList (Spelling.erase name.toList)

/-- The package of a qualified name: what stands before its last dot. -/
def package? (name : String) : Option String :=
  (Spelling.splitLast name.toList).map fun parts => String.ofList parts.1

/-- A qualified name without its package. -/
def simple (name : String) : String :=
  match Spelling.splitLast name.toList with
  | some (_, back) => String.ofList back
  | none => name

end ConstraintFacets.TypeName
