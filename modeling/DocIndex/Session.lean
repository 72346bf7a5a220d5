import DocIndex.Document.Render

/-!
# Sessions

What a user asks of an index under a configuration: the document of a name, its members, a search,
and the modules. Names that stand for nothing are no faults; they have no document and no members.
-/

namespace DocIndex.Session

variable {σ : Type} [Engine σ]

/-- The document for a typed name. -/
def document (c : Config) (name : String) : Index σ (Option Document) := do
  match ← Index.resolve c name with
  | none => return none
  | some r => Index.render c.style c r

/-- The members of the wanted categories of what a typed name stands for. -/
def members (c : Config) (name : String) (filter : CategorySet) : Index σ (List Member) := do
  match ← Index.resolve c name with
  | none => return []
  | some r =>
    if r.isRoot then Index.listRoot c filter else Index.listChildren c r.handle filter

/-- The hits of a search. -/
def search (c : Config) (query : String) : Index σ (List SearchHit) :=
  Index.search c query

/-- The names of all modules. -/
def modules : Index σ (List String) :=
  Index.modules

end DocIndex.Session
