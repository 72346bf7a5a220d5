import DocIndex.Snapshot.Basic

/-!
# Building snapshots

A snapshot is built from the empty one by `push`, which appends a declaration and enters it among
the members of its parent, `addModule` and `addFile`. A declaration starts as `Decl.named` or
`Decl.redirecting` and is filled in step by step.
-/

namespace DocIndex

namespace Decl

/-- A declaration with a name and a category only. -/
def named (name : String) (category : Category) : Decl :=
  { name, category }

/-- An alias for the declaration at `target`. -/
def redirecting (name : String) (target : UInt32) : Decl :=
  { name, category := .redirect, aliasee := some target }

/-- The declaration inside another one. -/
def inScope (d : Decl) (parent : UInt32) : Decl :=
  { d with parent := some parent }

/-- The declaration with the given documentation. -/
def withDocs (d : Decl) (html : String) : Decl :=
  { d with docsHtml := html }

/-- The declaration with the given prototype. -/
def withSignature (d : Decl) (html : String) : Decl :=
  { d with signatureHtml := html }

/-- The declaration with one more parameter. -/
def withParam (d : Decl) (html : String) : Decl :=
  { d with params := d.params ++ [html] }

/-- The declaration with one more field. -/
def withField (d : Decl) (html : String) : Decl :=
  { d with fields := d.fields ++ [html] }

/-- The declaration with an error set of its own. -/
def withErrors (d : Decl) (errors : List ErrorEntry) : Decl :=
  { d with errorSet := some { errors } }

/-- The declaration with the given example. -/
def withExample (d : Decl) (html : String) : Decl :=
  { d with exampleHtml := html }

/-- The declaration with the given source. -/
def withSource (d : Decl) (html : String) : Decl :=
  { d with sourceHtml := html }

/-- The declaration, kept out of listings unless they ask for private members. -/
def asPrivate (d : Decl) : Decl :=
  { d with isPrivate := true }

/-- The declaration with one more member. -/
def addMember (d : Decl) (index : UInt32) : Decl :=
  { d with members := d.members ++ [index] }

end Decl

namespace Snapshot

/-- The position that the next declaration gets. -/
def nextIndex (s : Snapshot) : UInt32 :=
  UInt32.ofNat s.decls.size

/-- The snapshot with one more declaration, which is entered among the members of its parent if the
parent exists already. -/
def withDecl (s : Snapshot) (d : Decl) : Snapshot :=
  let decls :=
    match d.parent with
    | some parent => s.decls.modify parent.toNat (·.addMember s.nextIndex)
    | none => s.decls
  { s with decls := decls.push d }

/-- Appends a declaration: its position, and the snapshot with it. -/
def push (s : Snapshot) (d : Decl) : UInt32 × Snapshot :=
  (s.nextIndex, s.withDecl d)

/-- The snapshot with one more module. -/
def addModule (s : Snapshot) (name : String) (root : UInt32) : Snapshot :=
  { s with modules := s.modules ++ [{ name, root }] }

/-- The snapshot with one more source file. -/
def addFile (s : Snapshot) (path : String) (root : UInt32) : Snapshot :=
  { s with files := s.files ++ [{ path, root }] }

end Snapshot

end DocIndex
