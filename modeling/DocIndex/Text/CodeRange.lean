/-!
# Tables of code points

Unicode properties are given by tables of regular runs of code points. A `CodeRange` is every
`step`-th code point between two ends, and a `CodeShift` moves each code point of such a range by
one distance. `Table.has` and `Table.shift` read the tables.
-/

namespace DocIndex.Text

/-- Every `step`-th code point from `first` to `last`. -/
structure CodeRange where
  first : Nat
  last : Nat
  step : Nat

/-- A range of code points that all move by the same distance. -/
structure CodeShift where
  range : CodeRange
  distance : Int

/-- Whether a code point belongs to the range. -/
def CodeRange.has (r : CodeRange) (code : Nat) : Bool :=
  r.first ≤ code && code ≤ r.last && (code - r.first) % r.step == 0

namespace Table

/-- Whether some range of the table has the character. -/
def has (table : List CodeRange) (c : Char) : Bool :=
  table.any (·.has c.toNat)

/-- The character moved as the first range that has it says; others stay. -/
def shift (table : List CodeShift) (c : Char) : Char :=
  match table.find? (·.range.has c.toNat) with
  | some s => Char.ofNat (c.toNat + s.distance).toNat
  | none => c

end Table

end DocIndex.Text
