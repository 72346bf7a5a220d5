/-!
# White space

`isBlank` holds of the characters with the Unicode property White_Space. Texts are lists of
characters: `trim` drops the white space at both ends and `words` are the pieces between it.
-/

namespace DocIndex.Text

/-- Whether the character has the Unicode property White_Space. -/
def isBlank (c : Char) : Bool :=
  let code := c.toNat
  (9 ≤ code && code ≤ 13) || code == 0x20 || code == 0x85 || code == 0xA0 || code == 0x1680 ||
    (0x2000 ≤ code && code ≤ 0x200A) || code == 0x2028 || code == 0x2029 || code == 0x202F ||
    code == 0x205F || code == 0x3000

/-- The list without the elements at its end that satisfy `p`. -/
def dropEndWhile {α : Type} (p : α → Bool) (s : List α) : List α :=
  (s.reverse.dropWhile p).reverse

/-- The list without the elements at both ends that satisfy `p`. -/
def stripWhile {α : Type} (p : α → Bool) (s : List α) : List α :=
  dropEndWhile p (s.dropWhile p)

/-- The text without the white space at its end. -/
def trimEnd (s : List Char) : List Char :=
  dropEndWhile isBlank s

/-- The text without the white space at both ends. -/
def trim (s : List Char) : List Char :=
  stripWhile isBlank s

/-- Whether the text holds nothing but white space. -/
def allBlank (s : List Char) : Bool :=
  s.all isBlank

/-- The longest pieces of the text that hold no white space, in order. -/
def words (s : List Char) : List (List Char) :=
  (s.splitOnP isBlank).filter fun w => !w.isEmpty

/-- The words of the text with one space between each two. -/
def oneLine (s : List Char) : List Char :=
  [' '].intercalate (words s)

end DocIndex.Text
