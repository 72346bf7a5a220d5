import DocIndex.Session

/-!
# Requests

Everything that can be asked of a session and of the index under it, as data: what is done for a
request (`Request.perform`), the machine behind a history of requests (`after`), and the texts that
may be looked up for a request, each with the export that reads it (`Request.lookups`).
-/

namespace DocIndex

/-- What may be looked up for a typed name: the path of a source file and the spellings. -/
def Config.lookups (c : Config) (input : String) : List (Export × String) :=
  (.fileRoot, bareName input) :: (c.candidates (bareName input)).map fun p => (.findDecl, p.2)

namespace Session

/-- What can be asked of a session, with the type of the answer. -/
inductive Request : Type → Type where
  | resolve (name : String) : Request (Option Resolved)
  | document (name : String) : Request (Option Document)
  | members (name : String) (filter : CategorySet) : Request (List Member)
  | search (query : String) : Request (List SearchHit)
  | modules : Request (List String)
  | render (style : Style) (r : Resolved) : Request (Option Document)
  | listChildren (scope : Handle) (filter : CategorySet) : Request (List Member)
  | listRoot (filter : CategorySet) : Request (List Member)
  | unwind (h : Handle) : Request Unwound
  | classify (h : Handle) : Request (Category × Option Handle)
  | findDeclaration (path : String) : Request (Option Handle)
  | namespaceMembers (h : Handle) (includePrivate : Bool) : Request (List Handle)
  | typeFunctionMembers (h : Handle) (includePrivate : Bool) : Request (List Handle)
  | fields (h : Handle) : Request (List FieldRef)
  | params (h : Handle) : Request (List ParamRef)
  | fullyQualifiedName (h : Handle) : Request String
  | declaredName (h : Handle) : Request String
  | parent (h : Handle) : Request (Option Handle)
  | docsHtml (h : Handle) (short : Bool) : Request String
  | signatureHtml (h : Handle) (short : Bool) : Request String
  | paramHtml (h : Handle) (p : ParamRef) : Request String
  | fieldHtml (h : Handle) (f : FieldRef) : Request String
  | exampleHtml (h : Handle) : Request String
  | sourceHtml (h : Handle) : Request String
  | errorSet (h : Handle) : Request (Option ErrorSetRef)
  | errorSetOwner (h : Handle) (set : ErrorSetRef) : Request Handle
  | errorSetEntries (h : Handle) (set : ErrorSetRef) : Request (List ErrorRef)
  | errorHtml (owner : Handle) (e : ErrorRef) : Request String
  | moduleName (i : UInt32) : Request (Option String)
  | moduleRoot (i : UInt32) : Request Handle
  | moduleRootNamed (name : String) : Request (Option Handle)
  | fileRoot (path : String) : Request (Option Handle)
  | runQuery (text : String) (ignoreCase : Bool) : Request (List Handle)

variable {σ α : Type} [Engine σ]

/-- What is done for a request. -/
def Request.perform (c : Config) : Request α → Index σ α
  | resolve name => Index.resolve c name
  | document name => Session.document c name
  | members name filter => Session.members c name filter
  | search query => Session.search c query
  | modules => Session.modules
  | render style r => Index.render style c r
  | listChildren scope filter => Index.listChildren c scope filter
  | listRoot filter => Index.listRoot c filter
  | unwind h => Index.unwind h
  | classify h => Index.classify h
  | findDeclaration path => Index.findDeclaration path
  | namespaceMembers h includePrivate => Index.namespaceMembers h includePrivate
  | typeFunctionMembers h includePrivate => Index.typeFunctionMembers h includePrivate
  | fields h => Index.fields h
  | params h => Index.params h
  | fullyQualifiedName h => Index.fullyQualifiedName h
  | declaredName h => Index.declaredName h
  | parent h => Index.parent h
  | docsHtml h short => Index.docsHtml h short
  | signatureHtml h short => Index.signatureHtml h short
  | paramHtml h p => Index.paramHtml h p
  | fieldHtml h f => Index.fieldHtml h f
  | exampleHtml h => Index.exampleHtml h
  | sourceHtml h => Index.sourceHtml h
  | errorSet h => Index.errorSet h
  | errorSetOwner h set => Index.errorSetOwner h set
  | errorSetEntries h set => Index.errorSetEntries h set
  | errorHtml owner e => Index.errorHtml owner e
  | moduleName i => Index.moduleName i
  | moduleRoot i => Index.moduleRoot i
  | moduleRootNamed name => Index.moduleRootNamed name
  | fileRoot path => Index.fileRoot path
  | runQuery text ignoreCase => Index.runQuery text ignoreCase

/-- The machine behind a history of requests. What a request did to it stays even if it failed. -/
def after (c : Config) (m : Machine σ) (history : List (Sigma Request)) : Machine σ :=
  history.foldl (fun m r => (r.2.perform c m).2) m

/-- What may be looked up for a request. -/
def Request.lookups (c : Config) : Request α → List (Export × String)
  | resolve name => c.lookups name
  | document name | members name _ => (.queryExec, c.publicAlias) :: c.lookups name
  | search query => [(.queryExec, trimmed query)]
  | render _ _ | listRoot _ => [(.queryExec, c.publicAlias)]
  | findDeclaration path => [(.findDecl, path)]
  | fileRoot path => [(.fileRoot, path)]
  | runQuery text _ => [(.queryExec, text)]
  | _ => []

end Session

end DocIndex
