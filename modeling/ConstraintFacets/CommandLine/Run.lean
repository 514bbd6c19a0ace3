import ConstraintFacets.ClientCheck
import ConstraintFacets.CommandLine.Arguments
import ConstraintFacets.CommandLine.Files
import ConstraintFacets.ExplicitType
import ConstraintFacets.Fragment
import ConstraintFacets.Json.Printer
import ConstraintFacets.Projection

/-! # Runs

A run turns its arguments and its files into an exit code and two texts, one for
the results and one for messages (`ConstraintFacets.Outcome.ofArguments`). Errors
end a run with code 1, misuse with code 2.
-/

namespace ConstraintFacets

/-- What a run leaves behind. -/
structure Outcome where
  /-- The exit code. -/
  code : Nat := 0
  /-- The results. -/
  output : String := ""
  /-- Notes, warnings and errors. -/
  messages : String := ""
deriving DecidableEq

/-- A line of text. -/
def textLine (text : String) : String :=
  text ++ "\n"

namespace Outcome

/-- A run that ends with an error, after some messages. -/
def failure (messages : String) (error : Error) : Outcome where
  code := 1
  messages := messages ++ textLine ("Error: " ++ error.message)

/-- A run that ends with results or with an error, after some messages. -/
def ofResult (messages : String) : Except Error String → Outcome
  | .ok output => { output, messages }
  | .error error => failure messages error

end Outcome

/-- The note about a declaration that is marked as ignored. -/
def ignoredNote (declaration : Declaration) : String :=
  if declaration.isIgnored then
    textLine ("note: " ++ declaration.name ++ " is marked as ignored")
  else ""

/-- The results of listing the constraints of a declaration. -/
def listConstraints (declaration : Declaration) (filter : GroupFilter) (required json : Bool) :
    Except AnnotationError String :=
  if json then do
    let constraints ← declaration.constraints filter
    .ok (textLine (Json.array (constraints.map Constraint.toJson)).pretty)
  else do
    let description ← declaration.describe (required || declaration.isRequired filter) filter
    .ok (textLine (declaration.name ++ ": " ++ description.getD "no constraints"))

/-- The run that lists the constraints of a declaration. -/
def runConstraints (files : Files) (settings : Settings) (path : String)
    (ignoredGroups : List String) (required json : Bool) : Outcome :=
  match files.loadDeclaration path with
  | .error error => .failure "" error
  | .ok declaration =>
    let filter := (ignoredGroups.foldl Settings.ignoring settings).filter
    .ofResult (ignoredNote declaration)
      ((listConstraints declaration filter required json).mapError .annotationUse)

/-- The base type of a declaration: the built-in type that is asked for, or the
type that is specified for the declaration. Without a file the package has no
annotations. -/
def baseType (files : Files) (declaration : Declaration)
    (base package itemType : Option String) : Except Error SchemaType :=
  match base with
  | some name =>
    match BuiltinType.ofName? name with
    | some type => .ok (.builtin type)
    | none => .error (.type (.unknown name))
  | none => do
    let package ←
      match package with
      | some path => files.loadDeclaration path
      | none => .ok (.ofPackage (declaration.package.getD ""))
    match ← (TypeCache.find {} declaration itemType package).1 with
    | some type => .ok type
    | none => .error (.type (.noBase declaration.name))

/-- The type that a declaration restricts its base to. -/
def restrictedType (files : Files) (settings : Settings) (declaration : Declaration)
    (base package itemType : Option String) : Except Error SchemaType := do
  let type ← baseType files declaration base package itemType
  (type.decorate declaration settings).mapError .annotationUse

/-- The warnings about facets that a type does not admit. -/
def inapplicableWarnings (settings : Settings) (type : SchemaType) : String :=
  if settings.reportInapplicable then
    String.join (type.inapplicable.map fun restriction =>
      textLine ("warning: " ++ restriction.facet.name ++ " is not applicable to " ++
        type.qualifiedName.text))
  else ""

/-- The results for a restricted type: its definition in a schema, or its facets. -/
def showType (type : SchemaType) (name : String) (xsd : Bool) : Except Error String :=
  if xsd then (type.fragment (some name)).map textLine
  else
    match type.restrictions with
    | [] => .ok (textLine (type.localName ++ ": unrestricted"))
    | facets => .ok (String.join (facets.map fun facet => textLine facet.text))

/-- The run that restricts a base type by the constraints of a declaration. -/
def runRestrict (files : Files) (settings : Settings) (path : String)
    (base package itemType : Option String) (stringLike xsd : Bool) : Outcome :=
  match files.loadDeclaration path with
  | .error error => .failure "" error
  | .ok declaration =>
    let settings := if stringLike then settings.withPolicy .stringLike else settings
    match restrictedType files settings declaration base package itemType with
    | .error error => .failure "" error
    | .ok type =>
      .ofResult (inapplicableWarnings settings type) (showType type declaration.name xsd)

/-- The run that checks type definitions against the Objective-C client. It fails
if there is an error among the findings. -/
def runObjc (files : Files) (path : String) : Outcome :=
  match files.loadDefinitions path with
  | .error error => .failure "" error
  | .ok definitions =>
    let report := clientChecker.checkAll definitions
    { code := if report.hasErrors then 1 else 0
      output := String.join (report.findings.map fun finding => textLine finding.text) }

/-- The run of an invocation. Settings are read first. -/
def Invocation.run (files : Files) (invocation : Invocation) : Outcome :=
  match files.loadSettings invocation.config with
  | .error error => .failure "" error
  | .ok settings =>
    match invocation.request with
    | .constraints declaration ignoredGroups required json =>
      runConstraints files settings declaration ignoredGroups required json
    | .restrict declaration base package itemType stringLike xsd =>
      runRestrict files settings declaration base package itemType stringLike xsd
    | .objc definitions => runObjc files definitions

/-- The files that an invocation may read. -/
def Invocation.paths (invocation : Invocation) : List String :=
  invocation.config.toList ++
    match invocation.request with
    | .constraints declaration _ _ _ => [declaration]
    | .restrict declaration _ package _ _ _ => declaration :: package.toList
    | .objc definitions => [definitions]

/-- The name and the version of the program. -/
def versionText : String := "enunciate 0.1.0"

/-- How the program is used. -/
def usageText : String :=
  "Usage: enunciate [-c SETTINGS] [-v]... COMMAND\n\n" ++
  "Commands:\n" ++
  "  constraints DECL [-g GROUP]... [--required] [-j]\n" ++
  "      List the active constraints of a declaration\n" ++
  "  restrict DECL [-b TYPE] [-p PACKAGE] [-t JAVA_TYPE] [--string-like] [--xsd]\n" ++
  "      Restrict a base type by the constraints of a declaration\n" ++
  "  objc DEFS\n" ++
  "      Check type definitions against the Objective-C client"

/-- What a run leaves behind, given what its arguments come to. -/
def Outcome.ofParsed (files : Files) : Parsed → Outcome
  | .run invocation => invocation.run files
  | .showVersion => { output := textLine versionText }
  | .showHelp => { output := textLine usageText }
  | .misuse => { code := 2, messages := textLine usageText }

/-- What a run with the given arguments leaves behind. -/
def Outcome.ofArguments (files : Files) (arguments : List String) : Outcome :=
  .ofParsed files (.ofArguments arguments)

end ConstraintFacets
