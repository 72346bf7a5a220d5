import DocIndex.Category

/-!
# Snapshots

A `Snapshot` is a table of declarations, with the modules and source files that lead into it. A
declaration is known by its position in the table. Documentation, prototypes and sources are kept
as HTML.
-/

namespace DocIndex

/-- A module: a name for a root declaration. Several names may share one root. -/
structure ModuleEntry where
  name : String
  root : UInt32
  deriving DecidableEq, Repr, Inhabited

/-- A source file and its root declaration. -/
structure FileEntry where
  path : String
  root : UInt32
  deriving DecidableEq, Repr, Inhabited

/-- One error of an error set. -/
structure ErrorEntry where
  name : String
  docsHtml : String := ""
  deriving DecidableEq, Repr, Inhabited

/-- The error set of a declaration. Its errors belong to `owner`, or to the declaration itself. -/
structure ErrorSet where
  owner : Option UInt32 := none
  errors : List ErrorEntry := []
  deriving DecidableEq, Repr, Inhabited

/-- A declaration. Module roots carry the name of their module. -/
structure Decl where
  name : String
  parent : Option UInt32 := none
  category : Category
  aliasee : Option UInt32 := none
  members : List UInt32 := []
  isPrivate : Bool := false
  docsHtml : String := ""
  signatureHtml : String := ""
  params : List String := []
  fields : List String := []
  errorSet : Option ErrorSet := none
  exampleHtml : String := ""
  sourceHtml : String := ""
  deriving DecidableEq, Repr, Inhabited

/-- A table of declarations with its modules and source files. -/
structure Snapshot where
  modules : List ModuleEntry := []
  decls : Array Decl := #[]
  files : List FileEntry := []
  deriving DecidableEq, Repr, Inhabited

namespace Snapshot

/-- The declaration at a position. -/
def decl? (s : Snapshot) (index : UInt32) : Option Decl :=
  s.decls[index.toNat]?

/-- The first module with a name. -/
def module? (s : Snapshot) (name : String) : Option ModuleEntry :=
  s.modules.find? (·.name = name)

end Snapshot

end DocIndex
