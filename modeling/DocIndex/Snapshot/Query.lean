import DocIndex.Snapshot.Path
import DocIndex.Text.Blank
import DocIndex.Text.LetterCase
import DocIndex.Text.Substring

/-!
# Full-text queries

A query is a text whose words are its terms. It finds the declarations that are not private and have
every term in one of the spellings of their path. Those named exactly like a term come first, then
those with the shorter path.
-/

namespace DocIndex.Snapshot

/-- A text as a query compares it: in lower case if case is ignored. -/
def comparable (ignoreCase : Bool) (s : List Char) : List Char :=
  if ignoreCase then Text.lowercase s else s

/-- The terms of a query. -/
def terms (ignoreCase : Bool) (query : String) : List (List Char) :=
  (Text.words query.toList).map (comparable ignoreCase)

/-- A declaration that a query finds, with what decides its place. -/
structure Hit where
  index : UInt32
  /-- Whether some term is the declared name. -/
  exact : Bool
  fqn : String
  deriving DecidableEq, Repr

/-- Whether one hit may stand before another: exact ones first, then by the number of dots in the
path, the path and the position. -/
def Hit.le (a b : Hit) : Bool :=
  if a.exact ≠ b.exact then a.exact
  else if Dotted.dots a.fqn ≠ Dotted.dots b.fqn then Dotted.dots a.fqn < Dotted.dots b.fqn
  else if a.fqn ≠ b.fqn then a.fqn < b.fqn
  else a.index ≤ b.index

/-- Whether every term is found in one of the spellings of the declaration's path. -/
def isHit (s : Snapshot) (ignoreCase : Bool) (terms : List (List Char)) (index : UInt32) : Bool :=
  let spellings := (s.spellings index).map fun p => comparable ignoreCase p.toList
  terms.all fun term => spellings.any fun p => Text.occursIn term p

/-- The declarations that have all the terms, in the order of the table. -/
def hits (s : Snapshot) (ignoreCase : Bool) (terms : List (List Char)) : List Hit :=
  s.decls.toList.zipIdx.filterMap fun (d, i) =>
    let index := UInt32.ofNat i
    if !d.isPrivate && s.isHit ignoreCase terms index then
      some { index, exact := terms.contains (comparable ignoreCase d.name.toList)
             fqn := s.fqn index }
    else none

/-- The positions that a query finds, in order. A query without terms finds nothing. -/
def query (s : Snapshot) (text : String) (ignoreCase : Bool) : List UInt32 :=
  match terms ignoreCase text with
  | [] => []
  | terms => ((s.hits ignoreCase terms).mergeSort Hit.le).map (·.index)

end DocIndex.Snapshot
