import DocIndex.Text.LetterCase.Table

/-!
# Letter case

`isUpper` and `isLower` are the Unicode properties Uppercase and Lowercase. `lowercase` is the full
lower-case mapping of a text, in which a capital sigma depends on what surrounds it. `fold` is
simple case folding: two characters are the same letter in spite of their case exactly when they
fold alike.
-/

namespace DocIndex.Text

/-- Whether the character has the Unicode property Uppercase. -/
def isUpper (c : Char) : Bool :=
  if c.toNat < 128 then c.isUpper else Table.has Table.uppercase c

/-- Whether the character has the Unicode property Lowercase. -/
def isLower (c : Char) : Bool :=
  if c.toNat < 128 then c.isLower else Table.has Table.lowercase c

/-- Whether the character is an upper-case, lower-case or titlecase one. -/
def isCased (c : Char) : Bool :=
  isUpper c || isLower c || Table.has Table.titlecase c

/-- Whether the character is passed over when the case of its surroundings is looked at. -/
def isCaseIgnorable (c : Char) : Bool :=
  if c.toNat < 128 then ['\'', '.', ':', '^', '\x60'].contains c
  else Table.has Table.caseIgnorable c

/-- The lower-case form of a character on its own: two characters for a capital i with dot above,
one for every other. -/
def toLower (c : Char) : List Char :=
  if c.toNat < 128 then [c.toLower]
  else if c = '\u0130' then ['i', '\u0307']
  else [Table.shift Table.lowercaseMapping c]

/-- Whether the first character that is not passed over is a cased one. -/
def startsCased (s : List Char) : Bool :=
  ((s.dropWhile isCaseIgnorable).head?.map isCased).getD false

/-- The lower-case form of a text that stands behind `before`, which is given backwards. A capital
sigma that ends a word becomes a final one. -/
def lowercaseAfter (before : List Char) : List Char → List Char
  | [] => []
  | c :: r =>
    let lower :=
      if c = 'Σ' then [if startsCased before && !startsCased r then 'ς' else 'σ'] else toLower c
    lower ++ lowercaseAfter (c :: before) r

/-- The lower-case form of a text. -/
def lowercase (s : List Char) : List Char :=
  lowercaseAfter [] s

/-- The simple case folding of a character. -/
def fold (c : Char) : Char :=
  if c.toNat < 128 then c.toLower else Table.shift Table.caseFolding c

/-- Whether two characters are the same letter in spite of their case. -/
def sameLetter (c d : Char) : Bool :=
  fold c == fold d

example : lowercase "ΑΣ ΑΣΑ".toList = "ας ασα".toList := by decide +kernel

example : sameLetter '\u017F' 's' && sameLetter '\u212A' 'k' && !sameLetter 'ı' 'i' := by
  decide +kernel

end DocIndex.Text
