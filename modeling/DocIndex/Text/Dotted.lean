import DocIndex.Text.Substring

/-!
# Dotted names

A dotted name is its segments with a dot between each two. `segments` cuts a name at every dot, so
it never has fewer than one segment.
-/

namespace DocIndex.Dotted

/-- The pieces of a name between its dots. -/
def segments (name : String) : List String :=
  (name.toList.splitOn '.').map String.ofList

/-- The name with the given segments. -/
def join (segments : List String) : String :=
  ".".intercalate segments

/-- The number of dots in a name. -/
def dots (name : String) : Nat :=
  name.toList.count '.'

/-- What is left of `name` behind `front` and a dot, if it starts so. -/
def below? (front name : String) : Option String :=
  (Text.stripFront (front.toList ++ ['.']) name.toList).map String.ofList

/-- Whether the name is a single segment. -/
def isSingle (name : String) : Bool :=
  !name.toList.contains '.'

example : segments "root.mem.eql" = ["root", "mem", "eql"] := by decide +kernel

example : below? "root" "root.mem.eql" = some "mem.eql" ∧ below? "root" "rootless.mem" = none := by
  decide +kernel

end DocIndex.Dotted
