import DocIndex.Markup.Prose

/-!
# Documents

A `Document` is Markdown under a title. It is laid out from parts: blocks of text and sections with
a heading. Every part that is not blank stands behind an empty line; blank ones leave no trace.
-/

namespace DocIndex

/-- A Markdown document. -/
structure Document where
  title : String
  markdown : String
  deriving DecidableEq, Repr

namespace Document

/-- A part of a document. -/
inductive Part where
  /-- Text on its own. -/
  | block (text : String)
  /-- Text under a heading. -/
  | headed (heading body : String)
  deriving DecidableEq, Repr

/-- Whether a text holds nothing but white space. -/
def isBlankText (s : String) : Bool :=
  Text.allBlank s.toList

/-- A block behind an empty line, without white space at its end. -/
def blockText (s : String) : String :=
  if isBlankText s then "" else "\n\n" ++ String.ofList (Text.trimEnd s.toList)

/-- The Markdown of a part. -/
def Part.text : Part → String
  | .block s => blockText s
  | .headed heading body =>
    if isBlankText body then "" else "\n\n## " ++ heading ++ blockText body

/-- The document with a title and the given parts. -/
def ofParts (title : String) (parts : List Part) : Document :=
  ⟨title, "# " ++ title ++ String.join (parts.map Part.text) ++ "\n"⟩

/-- Code in a fence that is tagged with a language; blank code has none. -/
def fenced (language code : String) : String :=
  if isBlankText code then "" else String.ofList (Markup.fence language.toList code.toList)

/-- A list entry with what belongs to it indented below. -/
def entryWith (entry body : String) : String :=
  if body = "" then entry else entry ++ "\n" ++ String.ofList (Text.indent 2 body.toList)

/-- Lines with one line feed between each two. -/
def lines (ls : List String) : String :=
  "\n".intercalate ls

/-- A text as inline code. -/
def quoted (s : String) : String :=
  "\x60" ++ s ++ "\x60"

example :
    (ofParts "std.mem" [.block "Memory helpers. ", .headed "Functions" "", .headed "Types" "  \n",
      .headed "Values" "- x"]).markdown =
      "# std.mem\n\nMemory helpers.\n\n## Values\n\n- x\n" := by decide +kernel

end Document

end DocIndex
