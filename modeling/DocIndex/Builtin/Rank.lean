import DocIndex.Builtin.Basic
import DocIndex.Text.Blank
import DocIndex.Text.LetterCase
import DocIndex.Text.Substring

/-!
# Ranking builtins by keyword

A keyword matches the builtins whose names contain it, in any case and without the sign in front.
Names equal to it come first, then those that start with it, then the others; a short name gains a
few points within its tier.
-/

namespace DocIndex

/-- A builtin that matches a keyword, with its score. -/
structure RankedBuiltin where
  score : UInt32
  builtin : Builtin
  deriving DecidableEq, Repr

/-- The object for a ranked builtin. -/
def RankedBuiltin.toJson (r : RankedBuiltin) : Json :=
  .record [("score", .nat r.score.toNat), ("builtin", r.builtin.toJson)]

/-- What a keyword gives. -/
inductive Ranking where
  /-- There was no keyword. -/
  | usage
  /-- The builtins that match, the best first. -/
  | results (ranked : List RankedBuiltin)
  deriving DecidableEq, Repr

namespace Builtin

/-- A name as keywords are compared with it. -/
def comparable (name : List Char) : List Char :=
  Text.lowercase (name.dropWhile (· == '@'))

/-- The points for how a keyword stands in a name, if it does. -/
def tier? (keyword name : List Char) : Option UInt32 :=
  if name = keyword then some 1000
  else if keyword.isPrefixOf name then some 500
  else if Text.occursIn keyword name then some 300
  else none

/-- What 100 points are divided by for a name: one more than it has characters, in a word. -/
def share (name : List Char) : UInt32 :=
  UInt32.ofNat name.length + 1

/-- The points for a short name. -/
def bonus (name : List Char) : UInt32 :=
  100 / share name

/-- The name of a builtin as keywords are compared with it. -/
def compared (b : Builtin) : List Char :=
  comparable b.name.toList

/-- The score of a builtin, if the keyword matches it. -/
def score? (keyword : List Char) (b : Builtin) : Option UInt32 :=
  (tier? keyword b.compared).map (· + bonus b.compared)

end Builtin

/-- Whether one ranked builtin may stand before another: the higher score first, then by name. -/
def RankedBuiltin.le (a b : RankedBuiltin) : Bool :=
  if a.score ≠ b.score then b.score < a.score else a.builtin.name ≤ b.builtin.name

namespace Builtin

/-- What a query asks for. -/
def keyword (query : String) : List Char :=
  comparable (Text.trim query.toList)

/-- The builtins that match a query, ranked. -/
def rank (builtins : List Builtin) (query : String) : Ranking :=
  match keyword query with
  | [] => .usage
  | keyword =>
    .results ((builtins.filterMap fun b =>
      (score? keyword b).map fun score => { score, builtin := b }).mergeSort RankedBuiltin.le)

end Builtin

end DocIndex
