import DocIndex.Text.LetterCase

/-!
# Names in snake case

`snakeCase` writes a name of capitalised words as lower-case words joined by underscores.
-/

namespace DocIndex.Text

/-- Whether a word starts at an upper-case letter between `before` and `after`: behind a lower-case
letter or an ASCII digit always, and behind another upper-case letter if a lower-case one
follows. -/
def startsWord (before after : Option Char) : Bool :=
  match before with
  | none => false
  | some b =>
    if isLower b || b.isDigit then true
    else if isUpper b then (after.map isLower).getD false
    else false

/-- The snake-case form of a name whose characters before the given ones end with `before` and are
`written` already, backwards. No underscore is put behind another one. -/
def snakeCaseAfter (before : Option Char) (written : List Char) : List Char → List Char
  | [] => written.reverse
  | c :: r =>
    let form :=
      if !isUpper c then [c]
      else if startsWord before r.head? && written.head? != some '_' then '_' :: toLower c
      else toLower c
    snakeCaseAfter (some c) (form.reverse ++ written) r

/-- The name with a lower-case word for each capitalised one and underscores between them. -/
def snakeCase (name : List Char) : List Char :=
  snakeCaseAfter none [] name

example : snakeCase "XMLParser".toList = "xml_parser".toList := by decide +kernel

example : snakeCase "Utf8View".toList = "utf8_view".toList := by decide +kernel

end DocIndex.Text
