import DocIndex.Config
import DocIndex.Search
import DocIndex.Text.SnakeCase

/-!
# Resolving names

Users type names in many forms. `candidates` lists the spellings of a name in the order in which
they are tried, each with the strategy behind it: the spellings as typed, the item inside a
submodule named after it, and the path inside each of the common submodules. Before those come
requests for the main module and for source files. `resolve` takes the first that the index knows.
-/

namespace DocIndex

/-- How a name was resolved. -/
inductive Strategy where
  /-- The name stands for the main module. -/
  | root
  /-- The name is the path of a source file. -/
  | filePath
  /-- A spelling of the name is in the index. -/
  | direct
  /-- The item is in a submodule named after it. -/
  | submoduleGuess
  /-- The path is in one of the common submodules. -/
  | commonSubmodule
  deriving DecidableEq, Repr, Inhabited

namespace Strategy

/-- All strategies in the order in which they are tried. -/
def all : List Strategy :=
  [root, filePath, direct, submoduleGuess, commonSubmodule]

/-- The name of a strategy. -/
def name : Strategy → String
  | root => "root"
  | filePath => "file_path"
  | direct => "direct"
  | submoduleGuess => "submodule_guess"
  | commonSubmodule => "common_submodule"

/-- The strategy with a name. -/
def ofName? (name : String) : Option Strategy :=
  all.find? fun s => s.name = name

end Strategy

/-- A name that was resolved. -/
structure Resolved where
  /-- The declaration, which may be an alias. -/
  handle : Handle
  strategy : Strategy
  /-- The spelling that the index knows. -/
  spelling : String
  /-- The name to show. -/
  title : String
  deriving DecidableEq, Repr

/-- Whether the name stood for the main module. -/
def Resolved.isRoot (r : Resolved) : Bool :=
  r.strategy = .root

/-! ## Spellings -/

/-- The snake-case form of a name. -/
def snakeCase (name : String) : String :=
  String.ofList (Text.snakeCase name.toList)

/-- How a name is anchored. -/
inductive Anchor where
  /-- It starts with neither root, so all of it is a path below one. -/
  | unprefixed
  /-- It starts with the public alias, with the path below it. -/
  | belowAlias (path : String)
  /-- It starts with the internal root. -/
  | belowRoot
  deriving DecidableEq, Repr

namespace Config

variable (c : Config)

/-- How a name is anchored. The internal root goes before the public alias. -/
def anchor (name : String) : Anchor :=
  match Dotted.below? c.internalRoot name, Dotted.below? c.publicAlias name with
  | some _, _ => .belowRoot
  | none, some path => .belowAlias path
  | none, none => .unprefixed

/-- A path below the internal root. -/
def atRoot (path : String) : String :=
  c.internalRoot ++ "." ++ path

/-- A path below the public alias. -/
def atAlias (path : String) : String :=
  c.publicAlias ++ "." ++ path

/-- The path below the root that a name asks for, unless it spells out the internal root. -/
def pathOf? (name : String) : Option String :=
  match c.anchor name with
  | .unprefixed => some name
  | .belowAlias path => some path
  | .belowRoot => none

/-- The spellings of a name as it was typed. -/
def directSpellings (name : String) : List String :=
  match c.anchor name with
  | .unprefixed => [c.atRoot name, c.atAlias name, name]
  | .belowAlias path => [c.atRoot path, name]
  | .belowRoot => [name]

/-- The spellings of a single item inside the submodule named after it. -/
def guessedSpellings (path : String) : List String :=
  let submodule := snakeCase path
  if Dotted.isSingle path && submodule ≠ path then
    [c.atRoot (submodule ++ "." ++ path), c.atAlias (submodule ++ "." ++ path)]
  else []

/-- The spellings of a path inside the common submodules. -/
def commonSpellings (path : String) : List String :=
  c.submodules.map fun submodule => c.atRoot (submodule ++ "." ++ path)

/-- The spellings of a name in the order in which they are tried. -/
def candidates (name : String) : List (Strategy × String) :=
  (c.directSpellings name).map (.direct, ·) ++
    match c.pathOf? name with
    | none => []
    | some path =>
      (c.guessedSpellings path).map (.submoduleGuess, ·) ++
        (c.commonSpellings path).map (.commonSubmodule, ·)

/-- Whether a spelling starts with the internal root or the public alias. -/
def isAnchored (spelling : String) : Bool :=
  (Dotted.below? c.internalRoot spelling).isSome || (Dotted.below? c.publicAlias spelling).isSome

/-- The short title of a name: a single item directly below the root keeps the name that was asked
for, if the spelling that was found starts at a root. -/
def shortTitle? (name spelling : String) : Option String :=
  match c.pathOf? name with
  | none => none
  | some path =>
    if Dotted.isSingle path && c.isAnchored spelling then some (c.atAlias path) else none

/-- Whether a name stands for the main module. -/
def namesRoot (name : String) : Bool :=
  name = "" || name = c.publicAlias || name = c.internalRoot

end Config

/-- Whether a name looks like the path of a source file. -/
def looksLikeFile (name : String) : Bool :=
  name.toList.contains '/' || ".zig".toList.isSuffixOf name.toList

/-- A name without white space and then without dots at its ends. -/
def bareName (input : String) : String :=
  String.ofList (Text.stripWhile (· == '.') (Text.trim input.toList))

/-! ## Resolution -/

namespace Index

variable {σ : Type} [Engine σ]

/-- The first of some spellings that the index knows. -/
def probe : List (Strategy × String) → Index σ (Option (Handle × Strategy × String))
  | [] => return none
  | (strategy, spelling) :: rest => do
    match ← findDeclaration spelling with
    | some h => return some (h, strategy, spelling)
    | none => probe rest

/-- The main module: the one named like the internal root, else the one named like the public
alias. -/
def resolveRoot (c : Config) : Index σ (Option Resolved) := do
  let found ←
    match ← moduleRootNamed c.internalRoot with
    | some h => pure (some h)
    | none => moduleRootNamed c.publicAlias
  return found.map fun handle =>
    { handle, strategy := .root, spelling := c.internalRoot, title := c.publicAlias }

/-- The declaration that a path stands for, from the spellings of the name. -/
def resolvePath (c : Config) (name : String) : Index σ (Option Resolved) := do
  match ← probe (c.candidates name) with
  | none => return none
  | some (handle, strategy, spelling) =>
    let title ←
      match c.shortTitle? name spelling with
      | some title => pure title
      | none => c.publicName <$> fullyQualifiedName handle
    return some { handle, strategy, spelling, title }

/-- The root declaration of a source file, if the name looks like one and is known. -/
def resolveFile (c : Config) (name : String) : Index σ (Option Resolved) := do
  if looksLikeFile name then
    match ← fileRoot name with
    | none => return none
    | some handle =>
      let title := c.publicName (← fullyQualifiedName handle)
      return some { handle, strategy := .filePath, spelling := name, title }
  else return none

/-- The declaration that a typed name stands for. -/
def resolve (c : Config) (input : String) : Index σ (Option Resolved) := do
  let name := bareName input
  if c.namesRoot name then resolveRoot c
  else
    match ← resolveFile c name with
    | some r => return some r
    | none => resolvePath c name

end Index

end DocIndex
