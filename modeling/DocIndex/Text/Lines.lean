import DocIndex.Text.Blank

/-!
# Lines

A line ends at a line feed, and a carriage return right before the line feed belongs to the line
end. A text that ends with a line feed has no empty last line.
-/

namespace DocIndex.Text

/-- The line without a carriage return at its end. -/
def dropReturn (line : List Char) : List Char :=
  if line.getLast? = some '\r' then line.dropLast else line

/-- The lines of the text, without their line ends. -/
def lines (s : List Char) : List (List Char) :=
  let pieces := s.splitOn '\n'
  let closed := pieces.dropLast.map dropReturn
  match pieces.getLast? with
  | none | some [] => closed
  | some rest => closed ++ [rest]

/-- The lines with one line feed between each two. -/
def joinLines (ls : List (List Char)) : List Char :=
  ['\n'].intercalate ls

/-- The text with `width` spaces in front of every line that is not empty. -/
def indent (width : Nat) (s : List Char) : List Char :=
  joinLines ((lines s).map fun line =>
    if line.isEmpty then [] else List.replicate width ' ' ++ line)

example : lines "a\r\n\nb\r".toList = ["a".toList, [], "b\r".toList] := by decide

example : lines "a\n".toList = ["a".toList] := by decide

end DocIndex.Text
