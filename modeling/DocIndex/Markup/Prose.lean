import DocIndex.Markup.Entity
import DocIndex.Markup.Tag
import DocIndex.Markup.Whitespace

/-!
# From HTML to Markdown

Documentation comes as HTML. `code` gives the plain text of marked-up code and keeps its lines;
`prose` turns the markup of documentation into Markdown, with each `pre` block as fenced code;
`inline` is prose on a single line; `definition` reads a term with its description.
-/

namespace DocIndex.Markup

open Text

/-- The text without tags. -/
def stripTags (s : List Char) : List Char :=
  anyTag.remove s

/-! ## Code -/

/-- The plain text of marked-up code, without white space at the ends of lines and without empty
lines around it. -/
def codeText (html : List Char) : List Char :=
  let plain := decode (stripTags (lineBreak.replace (fun _ => ['\n']) html))
  joinLines (stripWhile List.isEmpty ((lines plain).map trimEnd))

/-- A fenced block of code in a language. -/
def fence (language code : List Char) : List Char :=
  "\x60\x60\x60".toList ++ language ++ '\n' :: code ++ "\n\x60\x60\x60".toList

/-! ## Prose -/

/-- A block of preformatted code. -/
def preformatted : Pattern (List Char) :=
  element true ["pre"]

/-- The mark that stands for a block while the text around it is converted. -/
def placeholder (n : Nat) : List Char :=
  '\x01' :: (toString n).toList ++ ['\x01']

/-- The text of the pieces with a placeholder on a paragraph of its own for each block; the next
block has number `n`. -/
def holdBlocks (n : Nat) : List (Piece (List Char)) → List Char
  | [] => []
  | .plain c :: rest => c :: holdBlocks n rest
  | .found _ :: rest => "\n\n".toList ++ placeholder n ++ "\n\n".toList ++ holdBlocks (n + 1) rest

/-- A placeholder, as the number of its block. -/
def held : Pattern Nat where
  read?
    | '\x01' :: r =>
      match r.takeWhile isDecimal, r.dropWhile isDecimal with
      | [], _ => none
      | digits, '\x01' :: rest => some (number 10 digits, rest)
      | _, _ => none
    | _ => none
  shorter := by
    intro s _ rest h
    split at h
    · rename_i r
      split at h
      · cases h
      · rename_i hd _
        cases h
        have := (List.dropWhile_suffix isDecimal (l := r)).length_le
        rw [hd, List.length_cons] at this
        simp only [List.length_cons]
        omega
      · cases h
    · cases h

/-- The text with the block in the place of each placeholder; one without a block vanishes. -/
def releaseBlocks (language : List Char) (blocks : List (List Char)) (s : List Char) : List Char :=
  held.replace (fun n => (blocks[n]?.map (fence language)).getD []) s

/-- The Markdown of a link: the address is kept only if it leads to the web. -/
def linkText (l : Link) : List Char :=
  let label := stripTags l.label
  if "http://".toList.isPrefixOf l.target || "https://".toList.isPrefixOf l.target then
    '[' :: label ++ "](".toList ++ l.target ++ [')']
  else label

/-- The text with Markdown in the place of the tags that have a meaning in it. -/
def convertTags (s : List Char) : List Char :=
  let s := lineBreak.replace (fun _ => ['\n']) s
  let s := (boundary ["p"]).replace (fun _ => "\n\n".toList) s
  let s := (boundary ["ul", "ol"]).replace (fun _ => "\n\n".toList) s
  let s := (openingTag ["li"]).replace (fun _ => "\n- ".toList) s
  let s := (element true ["h1", "h2", "h3", "h4", "h5", "h6"]).replace
    (fun inner => "\n\n**".toList ++ trim (stripTags inner) ++ "**\n\n".toList) s
  let s := (element true ["code"]).replace (fun inner => '\x60' :: stripTags inner ++ ['\x60']) s
  let s := (element false ["strong", "b"]).replace
    (fun inner => "**".toList ++ inner ++ "**".toList) s
  let s := (element false ["em", "i"]).replace (fun inner => '*' :: inner ++ ['*']) s
  link.replace linkText s

/-- The Markdown of documentation, in which `pre` blocks are fenced as code in the language. -/
def proseText (language html : List Char) : List Char :=
  let pieces := preformatted.scan html
  let blocks := (pieces.filterMap Piece.found?).map codeText
  let text := decode (stripTags (convertTags (holdBlocks 0 pieces)))
  trim (releaseBlocks language blocks (collapse text))

/-- The Markdown of documentation on a single line. -/
def inlineText (html : List Char) : List Char :=
  oneLine (proseText [] html)

/-! ## Definitions -/

/-- A description. -/
def description : Pattern (List Char) :=
  element true ["dd"]

/-- The term of a definition, on a single line, and its description. Without a marked term all that
is not description is the term. -/
def definitionText (language html : List Char) : List Char × List Char :=
  let term :=
    match (element true ["dt"]).first? html with
    | some term => inlineText term
    | none => inlineText (description.remove html)
  (term, ((description.first? html).map (proseText language)).getD [])

/-! ## Strings -/

/-- The plain text of marked-up code, line by line. -/
def code (html : String) : String :=
  String.ofList (codeText html.toList)

/-- The Markdown of documentation, in which `pre` blocks are fenced as code in the language. -/
def prose (html language : String) : String :=
  String.ofList (proseText language.toList html.toList)

/-- The Markdown of documentation on a single line. -/
def inline (html : String) : String :=
  String.ofList (inlineText html.toList)

/-- The term of a definition and the Markdown of its description. -/
def definition (html language : String) : String × String :=
  let (term, body) := definitionText language.toList html.toList
  (String.ofList term, String.ofList body)

end DocIndex.Markup
