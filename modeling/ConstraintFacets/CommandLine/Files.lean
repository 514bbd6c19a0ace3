import ConstraintFacets.Declaration
import ConstraintFacets.Definition.Snapshot
import ConstraintFacets.Error
import ConstraintFacets.Json.Parser
import ConstraintFacets.Settings

/-! # Files of a run

A run reads its files as texts; a file whose bytes are no text is a fault of the
file. Texts are read as JSON documents of the expected form.
-/

namespace ConstraintFacets

/-- The text of a file, by its path. -/
abbrev Files := String → Except FileFault String

namespace Files

/-- The text that the bytes of a file stand for. -/
def decode (bytes : ByteArray) : Except FileFault String :=
  match String.fromUTF8? bytes with
  | some text => .ok text
  | none => .error .notText

/-- Reads a text as a document. -/
def document {α : Type} (read? : Json → Option α) (text : String) : Except Error α :=
  match (Json.parse text).bind read? with
  | some value => .ok value
  | none => .error .json

/-- Reads a file as a document. -/
def load {α : Type} (files : Files) (read? : Json → Option α) (path : String) :
    Except Error α :=
  match files path with
  | .ok text => document read? text
  | .error fault => .error (.file fault)

/-- Reads the settings of a run; without a file they are the default ones. -/
def loadSettings (files : Files) : Option String → Except Error Settings
  | some path => files.load Settings.ofJson? path
  | none => .ok {}

/-- Reads a declaration. -/
def loadDeclaration (files : Files) (path : String) : Except Error Declaration :=
  files.load Declaration.ofJson? path

/-- Reads a list of type definitions. -/
def loadDefinitions (files : Files) (path : String) : Except Error (List TypeDefinition) :=
  files.load TypeDefinition.listOfJson? path

end Files

end ConstraintFacets
