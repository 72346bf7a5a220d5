import DocIndex.Text.Lines

/-!
# White space in prose

`collapse` joins the lines of a paragraph or list item to one line with single spaces. Paragraphs
are set apart by one empty line, and the items of a list stand on lines of their own, set apart from
what comes before the list.
-/

namespace DocIndex.Markup

open Text

/-- Whether the character is one of the spaces whose runs are drawn together. -/
def isSpace (c : Char) : Bool :=
  c == ' ' || c == '\t' || c == '\r' || c == '\x0C'

/-- The text with one blank in the place of each run of spaces. -/
def squeeze : List Char → List Char
  | [] => []
  | c :: r =>
    if isSpace c then
      match squeeze r with
      | ' ' :: rest => ' ' :: rest
      | rest => ' ' :: rest
    else c :: squeeze r

/-- Whether a line starts a list item. -/
def isItem (line : List Char) : Bool :=
  ['-', ' '].isPrefixOf line

/-- The lines written so far, the latest first, and whether an empty line came after them. -/
structure Collapsing where
  written : List (List Char)
  broken : Bool

/-- What is written after one more line. It goes on with the line before unless it starts an item or
an empty line came between. -/
def Collapsing.step (state : Collapsing) (raw : List Char) : Collapsing :=
  let line := trim (squeeze raw)
  if line.isEmpty then { state with broken := true }
  else
    let written :=
      match state.written with
      | [] => [line]
      | last :: rest =>
        if state.broken || (isItem line && !isItem last) then line :: [] :: last :: rest
        else if isItem line then line :: last :: rest
        else (last ++ ' ' :: line) :: rest
    ⟨written, false⟩

/-- The text with the lines of each paragraph and item joined. -/
def collapse (s : List Char) : List Char :=
  joinLines ((lines s).foldl Collapsing.step ⟨[], false⟩).written.reverse

example : collapse "First   line\n   continues.\n\nModes:\n- fast\n- safe".toList =
    "First line continues.\n\nModes:\n\n- fast\n- safe".toList := by decide +kernel

end DocIndex.Markup
