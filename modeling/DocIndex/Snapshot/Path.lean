import DocIndex.Snapshot.Basic
import DocIndex.Text.Dotted

/-!
# Paths in a snapshot

A dotted path leads from the name of a module down the members to a declaration (`lookup`), passing
through aliases on its way (`follow`). `fqn` is the path back up the parents, and `spellings` are
its forms under every module name for the same root.
-/

namespace DocIndex.Snapshot

/-- The first declaration that is no alias on the way from `index`, if the way gets there in fewer
than `hops` redirections. -/
def followFor (s : Snapshot) : (hops : Nat) → (index : UInt32) → Option UInt32
  | 0, _ => none
  | hops + 1, index => do
    let d ← s.decl? index
    if d.category = .redirect then
      let target ← d.aliasee
      s.followFor hops target
    else return index

/-- The declaration that an alias stands for in the end; every other declaration stands for itself.
More redirections than there are declarations lead nowhere. -/
def follow (s : Snapshot) (index : UInt32) : Option UInt32 :=
  s.followFor (s.decls.size + 1) index

/-- The first member with a name, of the declaration that `scope` stands for. -/
def member? (s : Snapshot) (scope : UInt32) (name : String) : Option UInt32 := do
  let d ← s.decl? (← s.follow scope)
  d.members.find? fun m => (s.decl? m).any (·.name = name)

/-- The declaration at the end of a path: the first segment names a module, each further one a
member. -/
def lookup (s : Snapshot) (path : String) : Option UInt32 :=
  match Dotted.segments path with
  | [] => none
  | first :: rest => do
    let m ← s.module? first
    rest.foldlM s.member? m.root

/-- The names of a declaration and of those around it, from the inside out, at most `most` of
them. -/
def ancestry (s : Snapshot) : (most : Nat) → (index : UInt32) → List String
  | 0, _ => []
  | most + 1, index =>
    match s.decl? index with
    | none => []
    | some d =>
      d.name ::
        match d.parent with
        | none => []
        | some parent => s.ancestry most parent

/-- The fully qualified name of a declaration: the names from the outermost declaration around it
down to its own. -/
def fqn (s : Snapshot) (index : UInt32) : String :=
  Dotted.join (s.ancestry (s.decls.size + 1) index).reverse

/-- The fully qualified name of a declaration, followed by its forms under the other names of the
module that the name starts with. -/
def spellings (s : Snapshot) (index : UInt32) : List String :=
  let fqn := s.fqn index
  match Dotted.segments fqn with
  | [] => [fqn]
  | head :: rest =>
    let root := (s.module? head).map (·.root)
    let others := s.modules.filter fun m => some m.root = root ∧ m.name ≠ head
    fqn :: others.map fun m => Dotted.join (m.name :: rest)

end DocIndex.Snapshot
