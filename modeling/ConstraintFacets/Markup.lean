/-! # Tags

A document without character data is a list of tags, each on a line of its own
and indented by two blanks for every tag that is open around it
(`ConstraintFacets.Tag.document`). Attribute values stand in double quotes, and
the five characters that markup may give a meaning to are written as entities
(`ConstraintFacets.Markup.escape`).
-/

namespace ConstraintFacets

namespace Markup

/-- The form of a character inside an attribute value. -/
def escapeChar (c : Char) : List Char :=
  if c = '<' then ['&', 'l', 't', ';']
  else if c = '>' then ['&', 'g', 't', ';']
  else if c = '&' then ['&', 'a', 'm', 'p', ';']
  else if c = '\'' then ['&', 'a', 'p', 'o', 's', ';']
  else if c = '"' then ['&', 'q', 'u', 'o', 't', ';']
  else [c]

/-- The form of a text inside an attribute value. -/
def escape (text : List Char) : List Char :=
  text.flatMap escapeChar

/-- An attribute with a blank before it. -/
def renderAttribute (entry : String × String) : List Char :=
  ' ' :: entry.1.toList ++ ['=', '"'] ++ escape entry.2.toList ++ ['"']

end Markup

/-- A tag of a document. -/
inductive Tag where
  /-- The start of an element. -/
  | opening (name : String) (entries : List (String × String))
  /-- The end of an element. -/
  | closing (name : String)
  /-- An element without content. -/
  | empty (name : String) (entries : List (String × String))
deriving DecidableEq

namespace Tag

/-- The characters of a tag. -/
def render : Tag → List Char
  | opening name entries =>
    '<' :: name.toList ++ entries.flatMap Markup.renderAttribute ++ ['>']
  | closing name => '<' :: '/' :: name.toList ++ ['>']
  | empty name entries =>
    '<' :: name.toList ++ entries.flatMap Markup.renderAttribute ++ ['/', '>']

/-- A tag on its line, inside a number of open elements. -/
def line (level : Nat) (tag : Tag) : List Char :=
  List.replicate (2 * level) ' ' ++ tag.render

/-- The lines of a list of tags, the first one inside a number of open elements. -/
def lines (level : Nat) : List Tag → List (List Char)
  | [] => []
  | opening name entries :: rest =>
    line level (opening name entries) :: lines (level + 1) rest
  | closing name :: rest => line (level - 1) (closing name) :: lines (level - 1) rest
  | empty name entries :: rest => line level (empty name entries) :: lines level rest

/-- The document of a list of tags. There is no line break at its end. -/
def document (tags : List Tag) : List Char :=
  List.intercalate ['\n'] (lines 0 tags)

end Tag

end ConstraintFacets
