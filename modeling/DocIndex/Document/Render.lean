import DocIndex.Document.Layout
import DocIndex.Member
import DocIndex.Resolve

/-!
# Rendering documents

`Index.render` writes the document for a resolved name. The main module is shown with its top level,
every other declaration as what it stands for, with the parts that its category has.
-/

namespace DocIndex

open Document

/-- How documents are written. -/
structure Style where
  /-- The language that fenced code is tagged with. -/
  codeLanguage : String := "zig"
  /-- Whether sources are shown. -/
  includeSource : Bool := false
  deriving DecidableEq, Repr

/-- The style that a configuration asks for. -/
def Config.style (c : Config) : Style :=
  { codeLanguage := c.codeLanguage, includeSource := c.includeSource }

/-! ## Member groups -/

/-- The groups of members in their order: heading and categories. -/
def memberGroups : List (String × CategorySet) :=
  [("Types", .types), ("Namespaces", .namespaces), ("Functions", .functions), ("Values", .values)]

/-- The list entry for a member. -/
def Member.entry (m : Member) : String :=
  if m.briefDoc = "" then "- " ++ quoted m.displayName
  else "- " ++ quoted m.displayName ++ " - " ++ m.briefDoc

/-- The sections for members, one for each group. -/
def memberParts (members : List Member) : List Part :=
  memberGroups.map fun (heading, set) =>
    .headed heading (lines ((members.filter fun m => set.admits m.category).map Member.entry))

namespace Index

variable {σ : Type} [Engine σ]

/-- The member sections of a declaration. -/
def childParts (c : Config) (target : Handle) : Index σ (List Part) := do
  return memberParts (← listChildren c target .full)

/-- The member sections of the main module. -/
def rootParts (c : Config) : Index σ (List Part) := do
  return memberParts (← listRoot c .full)

/-! ## Sections of a declaration -/

/-- A field on one line, as code. -/
def fieldLine (target : Handle) (f : FieldRef) : Index σ (Option String) := do
  let code := Text.oneLine (Markup.codeText (← fieldHtml target f).toList)
  return if code.isEmpty then none else some ("- " ++ quoted (String.ofList code))

/-- The fields of a declaration. Those without code are left out. -/
def fieldsPart (target : Handle) : Index σ Part := do
  let entries ← (← fields target).mapM (fieldLine target)
  return .headed "Fields" (lines (entries.filterMap id))

/-- The prototype of a function. -/
def signaturePart (s : Style) (target : Handle) : Index σ Part := do
  return .block (fenced s.codeLanguage (Markup.code (← signatureHtml target false)))

/-- A parameter on one line. One without text keeps its place. -/
def paramLine (target : Handle) (p : ParamRef) : Index σ String := do
  let text := Markup.inline (← paramHtml target p)
  return if text = "" then "- *(unnamed)*" else "- " ++ text

/-- The parameters of a function. -/
def paramsPart (target : Handle) : Index σ Part := do
  return .headed "Parameters" (lines (← (← params target).mapM (paramLine target)))

/-- An error with its description below. -/
def errorEntry (s : Style) (owner : Handle) (e : ErrorRef) : Index σ (Option String) := do
  let (name, body) := Markup.definition (← errorHtml owner e) s.codeLanguage
  return if name = "" then none else some (entryWith ("- " ++ quoted name) body)

/-- The errors of a declaration, if it has an error set. Those without a name are left out. -/
def errorParts (s : Style) (target : Handle) : Index σ (List Part) := do
  match ← errorSet target with
  | none => return []
  | some set =>
    let owner ← errorSetOwner target set
    let entries ← (← errorSetEntries target set).mapM (errorEntry s owner)
    return [.headed "Errors" (lines (entries.filterMap id))]

/-- The example of a declaration. -/
def examplePart (s : Style) (target : Handle) : Index σ Part := do
  return .headed "Example" (fenced s.codeLanguage (Markup.code (← exampleHtml target)))

/-- The source of a declaration, if sources are shown. -/
def sourceParts (s : Style) (target : Handle) : Index σ (List Part) := do
  if s.includeSource then
    return [.headed "Source" (fenced s.codeLanguage (Markup.code (← sourceHtml target)))]
  else return []

/-- The sections that declarations of a category have, in their order. -/
def bodyParts (s : Style) (c : Config) (target : Handle) : Category → Index σ (List Part)
  | .nameSpace | .container => do
    let members ← childParts c target
    return members ++ [← fieldsPart target]
  | .function => do
    let signature ← signaturePart s target
    let params ← paramsPart target
    let errors ← errorParts s target
    let doctest ← examplePart s target
    return [signature, params] ++ errors ++ [doctest] ++ (← sourceParts s target)
  | .typeFunction => do
    let signature ← signaturePart s target
    let params ← paramsPart target
    let errors ← errorParts s target
    let doctest ← examplePart s target
    let members ← childParts c target
    return [signature, params] ++ errors ++ [doctest] ++ members ++ (← sourceParts s target)
  | .errorSet => do
    let errors ← errorParts s target
    return errors ++ (← sourceParts s target)
  | .globalVariable | .globalConst | .primitive | .type | .typeType | .redirect =>
    sourceParts s target

/-- The documentation of a declaration. -/
def docsPart (s : Style) (h : Handle) : Index σ Part := do
  return .block (Markup.prose (← docsHtml h false) s.codeLanguage)

/-- The line that says what kind of thing a declaration is. -/
def kindPart (category : Category) (name : String) : Part :=
  .block ("*" ++ category.label ++ "* " ++ quoted name)

/-- The document of the main module. -/
def renderRoot (s : Style) (c : Config) (r : Resolved) : Index σ Document := do
  let docs ← docsPart s r.handle
  let members ← rootParts c
  return .ofParts r.title (kindPart .nameSpace c.publicAlias :: docs :: members)

/-- The document of a declaration of the given category. -/
def renderDecl (s : Style) (c : Config) (title : String) (target : Handle) (category : Category) :
    Index σ Document := do
  let kind := kindPart category (← declaredName target)
  let docs ← docsPart s target
  return .ofParts title (kind :: docs :: (← bodyParts s c target category))

/-- The document for a resolved name. An alias is shown as what it stands for, under the title that
was asked for; one that leads nowhere has no document. -/
def render (s : Style) (c : Config) (r : Resolved) : Index σ (Option Document) := do
  if r.isRoot then return some (← renderRoot s c r)
  else
    match (← unwind r.handle).concrete? with
    | none => return none
    | some (target, category) => return some (← renderDecl s c r.title target category)

end Index

end DocIndex
