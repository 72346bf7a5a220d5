import DocIndex.Search

/-!
# Members

`listChildren` describes the members of a declaration. `listRoot` describes what users reach
directly below the public alias, which is found by a query for the alias.
-/

namespace DocIndex

/-- A member of a declaration. -/
structure Member where
  /-- The member as its parent has it, which may be an alias. -/
  handle : Handle
  displayName : String
  /-- The category of what the member stands for. -/
  category : Category
  /-- The summary of what the member stands for. -/
  briefDoc : String
  /-- The public form of the member's fully qualified name. -/
  path : String
  deriving DecidableEq, Repr

namespace Index

variable {σ : Type} [Engine σ]

/-- Describes a member. Nothing is said of an alias that leads nowhere. -/
def describe (c : Config) (child : Handle) : Index σ (Option Member) := do
  let displayName ← declaredName child
  match (← unwind child).concrete? with
  | none => return none
  | some (target, category) =>
    let briefDoc := Markup.inline (← docsHtml target true)
    let path := c.publicName (← fullyQualifiedName child)
    return some { handle := child, displayName, category, briefDoc, path }

/-- Describes the members of a list and keeps those of the wanted categories. -/
def describeAll (c : Config) (filter : CategorySet) : List Handle → Index σ (List Member)
  | [] => return []
  | child :: rest => do
    let member ← describe c child
    let others ← describeAll c filter rest
    return (member.filter fun m => filter.admits m.category).toList ++ others

/-- The members of a declaration of the wanted categories, in the order of the engine. What cannot
have members has none. -/
def listChildren (c : Config) (parent : Handle) (filter : CategorySet) :
    Index σ (List Member) := do
  match (← unwind parent).concrete? with
  | none => return []
  | some (scope, category) =>
    if category = .typeFunction then
      describeAll c filter (← typeFunctionMembers scope c.includePrivate)
    else if category.hasMembers then
      describeAll c filter (← namespaceMembers scope c.includePrivate)
    else return []

/-- The last segment of a name that is exactly one level below the internal root. -/
def topLevelName? (c : Config) (fqn : String) : Option String :=
  match Dotted.segments fqn with
  | [head, name] => if head = c.internalRoot then some name else none
  | _ => none

/-- The declarations of a list that are exactly one level below the internal root, the first one of
each name. Names in `seen` are left out. -/
def topLevel (c : Config) (seen : List String) : List Handle → Index σ (List Handle)
  | [] => return []
  | h :: rest => do
    match topLevelName? c (← fullyQualifiedName h) with
    | none => topLevel c seen rest
    | some name =>
      if name ∈ seen then topLevel c seen rest
      else return h :: (← topLevel c (name :: seen) rest)

/-- The members of the wanted categories directly below the public alias, sorted by name. If the
query for the alias finds none, the members of the module named like the internal root are
listed. -/
def listRoot (c : Config) (filter : CategorySet) : Index σ (List Member) := do
  let hits ← runQuery c.publicAlias (ignoresCase c.publicAlias)
  let found ← topLevel c [] hits
  let children ←
    if found.isEmpty then
      match ← moduleRootNamed c.internalRoot with
      | some root => namespaceMembers root c.includePrivate
      | none => pure []
    else pure found
  let members ← describeAll c filter children
  return members.mergeSort fun a b => a.displayName ≤ b.displayName

end Index

end DocIndex
