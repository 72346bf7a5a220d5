import DocIndex.Config
import DocIndex.Markup.Prose
import DocIndex.Unwind

/-!
# Full-text search

`search` runs a query on the engine and describes what it finds. The case of letters counts only if
the query has an upper-case letter. Aliases that lead nowhere are left out and do not count towards
the limit.
-/

namespace DocIndex

/-- A declaration that a search found. -/
structure SearchHit where
  /-- The declaration itself, which may be an alias. -/
  handle : Handle
  name : String
  /-- The public form of the fully qualified name. -/
  fqn : String
  /-- The category of what the declaration stands for. -/
  category : Category
  /-- The summary of what the declaration stands for. -/
  brief : String
  deriving DecidableEq, Repr

/-- Whether a query ignores case: if it has no upper-case letter. -/
def ignoresCase (query : String) : Bool :=
  !query.toList.any Text.isUpper

/-- The text without white space at its ends. -/
def trimmed (s : String) : String :=
  String.ofList (Text.trim s.toList)

namespace Index

variable {σ : Type} [Engine σ]

/-- Describes a declaration that a query found. Nothing is said of an alias that leads nowhere. -/
def describeHit (c : Config) (h : Handle) : Index σ (Option SearchHit) := do
  match (← unwind h).concrete? with
  | none => return none
  | some (target, category) =>
    let name ← declaredName h
    let fqn := c.publicName (← fullyQualifiedName h)
    let brief := Markup.inline (← docsHtml target true)
    return some { handle := h, name, fqn, category, brief }

/-- Describes the declarations of a list, and stops as soon as there are `limit` hits. -/
def describeHits (c : Config) : (limit : Nat) → List Handle → Index σ (List SearchHit)
  | 0, _ | _, [] => return []
  | limit + 1, h :: rest => do
    match ← describeHit c h with
    | some hit => return hit :: (← describeHits c limit rest)
    | none => describeHits c (limit + 1) rest

/-- The declarations that a query finds, as many as the configuration allows. A blank query finds
nothing. -/
def search (c : Config) (query : String) : Index σ (List SearchHit) := do
  let query := trimmed query
  if query = "" then return []
  else describeHits c c.searchLimit (← runQuery query (ignoresCase query))

end Index

end DocIndex
