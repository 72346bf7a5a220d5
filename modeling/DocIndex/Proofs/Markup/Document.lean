import DocIndex.Proofs.Markup.Section

/-!
# Well-formed documentation

A document is a list of blocks: paragraphs, headings, bullet lists and `pre` blocks. Words are kept
apart by gaps, and runs of words may be set apart by a style. `Document.html` writes a document in
HTML, with nothing between one block and the next, and `Document.markdown` in Markdown, with single
spaces between words and one empty line between blocks. The conversion of documentation takes the
one to the other, for every document and language (`prose_html`).
-/

namespace DocIndex.Markup

open Text

/-! ## Documents -/

/-- A word of documentation. -/
structure Word where
  text : List Char
  chunk : Chunk text

/-- The white space between two words. -/
structure Gap where
  text : List Char
  isGap : IsGap text

/-- Things of one kind, at least one, with gaps between them. -/
structure Spread (α : Type) where
  first : α
  rest : List (Gap × α)

namespace Spread

variable {α : Type}

/-- All written one after the other, with their gaps. -/
def text (write : α → List Char) (s : Spread α) : List Char :=
  write s.first ++ s.rest.flatMap fun x => x.1.text ++ write x.2

/-- All written on one line, with single spaces between them. -/
def line (write : α → List Char) (s : Spread α) : List Char :=
  write s.first ++ s.rest.flatMap fun x => ' ' :: write x.2

end Spread

/-- Words with gaps between them. -/
abbrev Phrase := Spread Word

namespace Phrase

/-- The words with their gaps. -/
def text (p : Phrase) : List Char :=
  Spread.text Word.text p

/-- The words with single spaces between them. -/
def line (p : Phrase) : List Char :=
  Spread.line Word.text p

end Phrase

/-- A run of words, set apart by a style or not. -/
inductive Run where
  | plain (words : Phrase)
  | styled (style : Style) (words : Phrase)

namespace Run

/-- The run in HTML. -/
def html : Run → List Char
  | plain words => escape words.text
  | styled style words => startTag style.tag ++ (escape words.text ++ endTag style.tag)

/-- The run with Markdown in the place of its tags. -/
def text : Run → List Char
  | plain words => words.text
  | styled style words => style.mark ++ (words.text ++ style.mark)

/-- The run in Markdown. -/
def markdown : Run → List Char
  | plain words => words.line
  | styled style words => style.mark ++ (words.line ++ style.mark)

end Run

/-- The runs of a paragraph or an item. -/
abbrev Content := Spread Run

namespace Content

/-- The content in HTML. -/
def html (c : Content) : List Char :=
  Spread.text Run.html c

/-- The content with Markdown in the place of its tags. -/
def text (c : Content) : List Char :=
  Spread.text Run.text c

/-- The content in Markdown. -/
def markdown (c : Content) : List Char :=
  Spread.line Run.markdown c

end Content

/-- A block of a document. -/
inductive Block where
  | paragraph (content : Content)
  | heading (level : Fin 6) (words : Phrase)
  | bullets (first : Content) (others : List Content)
  | preformatted (code : List Char)

/-- Code without white space at the ends of its lines and without empty lines around it. -/
def tidyCode (code : List Char) : List Char :=
  joinLines (stripWhile List.isEmpty ((lines code).map trimEnd))

namespace Block

/-- The block in HTML. -/
def html : Block → List Char
  | paragraph content => startTag "p" ++ (content.html ++ endTag "p")
  | heading level words =>
    startTag (headingName level) ++ (escape words.text ++ endTag (headingName level))
  | bullets first others =>
    startTag "ul" ++
      ((first :: others).flatMap (fun item => startTag "li" ++ (item.html ++ endTag "li")) ++
        endTag "ul")
  | preformatted code => startTag "pre" ++ (escape code ++ endTag "pre")

/-- The block in Markdown. -/
def markdown (language : List Char) : Block → List Char
  | paragraph content => content.markdown
  | heading _ words => "**".toList ++ (words.line ++ "**".toList)
  | bullets first others =>
    joinLines ((first :: others).map fun item => '-' :: ' ' :: item.markdown)
  | preformatted code => fence language (tidyCode code)

end Block

/-- The blocks of documentation, in order. -/
abbrev Document := List Block

namespace Document

/-- The document in HTML. -/
def html (doc : Document) : List Char :=
  doc.flatMap Block.html

/-- The document in Markdown, with code in the language. -/
def markdown (language : List Char) (doc : Document) : List Char :=
  ['\n', '\n'].intercalate (doc.map (Block.markdown language))

end Document

/-! ## Lines -/

namespace Spread

variable {α : Type} {text line : α → List Char}

theorem woven (woven : ∀ a, Woven (text a) (line a)) (s : Spread α) :
    Woven (s.text text) (s.line line) := by
  obtain ⟨first, rest⟩ := s
  rw [Spread.text, Spread.line]
  induction rest generalizing first with
  | nil => simpa using woven first
  | cons x rest ih => simpa using (woven first).append x.1.isGap (ih x.2)

theorem converts {html : α → List Char} (converts : ∀ a, Converts (html a) (text a))
    (s : Spread α) : Converts (s.text html) (s.text text) := by
  refine (converts s.first).append (Converts.flatMap fun x _ => .append ?_ (converts x.2))
  have blank := x.1.isGap.isBlank
  have plain {c : Char} (hc : isBlank c = false) : c ∉ x.1.text :=
    fun mem => by simp [blank c mem] at hc
  exact .text (plain rfl) (rewrites_decode_of_plain (plain rfl))

end Spread

namespace Phrase

theorem woven (p : Phrase) : Woven p.text p.line :=
  Spread.woven (fun w => .chunk w.chunk) p

end Phrase

theorem Style.solid (style : Style) : ∀ c ∈ style.mark, isBlank c = false ∧ c ≠ '\x01' := by
  cases style <;> simp [Style.mark] <;> decide

namespace Run

theorem woven (r : Run) : Woven r.text r.markdown := by
  cases r with
  | plain words => exact words.woven
  | styled style words => exact (words.woven.postpend style.solid).prepend style.solid

theorem converts (r : Run) : Converts r.html r.text := by
  cases r with
  | plain words => exact .escaped words.text
  | styled style words => exact converts_style style words.text

end Run

namespace Content

theorem woven (c : Content) : Woven c.text c.markdown :=
  Spread.woven Run.woven c

theorem converts (c : Content) : Converts c.html c.text :=
  Spread.converts Run.converts c

end Content

/-! ## Sections -/

/-- The code of an escaped text is that text. -/
theorem codeText_escape (code : List Char) : codeText (escape code) = tidyCode code := by
  have plain := lt_notMem_escape code
  have breaks : lineBreak.replace (fun _ => ['\n']) (escape code) = escape code :=
    (opens_lineBreak.keeps_text plain).replace.eq Pattern.replace_nil
  rw [codeText, breaks, stripTags_of_plain plain, (rewrites_decode_escape code).eq decode_nil]
  rfl

namespace Block

variable {language : List Char}

/-- The `pre` block of a code. -/
def listing (code : List Char) : Listing where
  attributes := []
  inner := escape code
  closed := by simp
  unclosed := inner?_of_plain (lt_notMem_escape code)

theorem converts_paragraph (content : Content) : Converts (paragraph content).html
    (['\n', '\n'] ++ (content.text ++ ['\n', '\n'])) :=
  .append .paragraph_start (content.converts.append .paragraph_end)

/-- What a list is converted to, without the line ends around it. -/
def itemsText (items : List Content) : List Char :=
  items.flatMap fun item => '\n' :: '-' :: ' ' :: item.text

theorem converts_bullets (first : Content) (others : List Content) :
    Converts (bullets first others).html
      (['\n', '\n'] ++ (itemsText (first :: others) ++ ['\n', '\n'])) := by
  refine .append .list_start (.append (.flatMap fun item _ => ?_) .list_end)
  have whole := Converts.append .item_start (item.converts.append .item_end)
  rwa [List.append_nil] at whole

theorem converts_heading (level : Fin 6) (words : Phrase) : Converts (heading level words).html
    (['\n', '\n'] ++ ("**".toList ++ (words.text ++ "**".toList) ++ ['\n', '\n'])) := by
  have whole := Markup.converts_heading level words.woven.framed.1
  simpa [html] using whole

/-- The block as a section of documentation. -/
def toSection : Block → Section
  | paragraph content => .text _ _ (converts_paragraph content)
  | heading level words => .text _ _ (converts_heading level words)
  | bullets first others => .text _ _ (converts_bullets first others)
  | preformatted code => .listing (listing code)

theorem html_toSection (b : Block) : b.toSection.html = b.html := by
  cases b <;> rfl

theorem woven_heading (words : Phrase) :
    Woven ("**".toList ++ (words.text ++ "**".toList))
      ("**".toList ++ (words.line ++ "**".toList)) :=
  (words.woven.postpend Style.strong.solid).prepend Style.strong.solid

/-- Neither end of a block in Markdown is white space. -/
theorem framed_markdown (b : Block) : Framed (b.markdown language) := by
  cases b with
  | paragraph content => exact content.woven.framed.2
  | heading level words => exact (woven_heading words).framed.2
  | bullets first others =>
    refine Framed.intercalate (by simp) (List.forall_mem_map.2 fun item _ => ?_)
    have dash : Framed ['-'] := framed_of_forall (by simp) (List.forall_mem_singleton.2 rfl)
    exact dash.append item.woven.framed.2 [' ']
  | preformatted code => exact framed_fence language (tidyCode code)

/-- Each block is shown as its Markdown, whatever code the other blocks hold. -/
theorem shown_toSection (b : Block) (language : List Char) (blocks : List (List Char)) :
    b.toSection.shown language blocks = b.markdown language := by
  cases b with
  | paragraph content =>
    rw [toSection, Section.shown, content.woven.collapse_eq,
      releaseBlocks_of_unmarked content.woven.unmarked]
    rfl
  | heading level words =>
    have woven := woven_heading words
    rw [toSection, Section.shown, woven.collapse_eq, releaseBlocks_of_unmarked woven.unmarked]
    rfl
  | bullets first others =>
    have lines := collapse_items fun item (_ : item ∈ first :: others) => item.woven
    have unmarked : '\x01' ∉ joinLines
        ((first :: others).map fun item => '-' :: ' ' :: item.markdown) := by
      refine notMem_intercalate (by decide) (List.forall_mem_map.2 fun item _ => ?_)
      simpa using item.woven.unmarked
    rw [toSection, Section.shown, itemsText, lines, releaseBlocks_of_unmarked unmarked]
    rfl
  | preformatted code =>
    rw [toSection, Section.shown, Listing.markdown]
    exact congrArg (fence language) (codeText_escape code)

/-- No block is shown as nothing. -/
theorem collapse_ne_nil {b : Block} {html body : List Char}
    {converts : Converts html (['\n', '\n'] ++ (body ++ ['\n', '\n']))}
    (same : b.toSection = .text html body converts) : collapse body ≠ [] := by
  intro none
  have shown := b.shown_toSection [] []
  rw [same, Section.shown, none, releaseBlocks_nil] at shown
  exact b.framed_markdown.ne shown.symm

end Block

/-- Well-formed documentation is converted exactly: its blocks come out in order, one empty line
apart, with every word and all code unchanged. -/
theorem prose_html (doc : Document) (language : String) :
    prose (String.ofList doc.html) language = String.ofList (doc.markdown language.toList) := by
  have sections : doc.html = (doc.map Block.toSection).flatMap Section.html := by
    rw [List.flatMap_map, Document.html]
    exact List.flatMap_congr fun b _ => b.html_toSection.symm
  have shown (blocks : List (List Char)) :
      (doc.map Block.toSection).map (Section.shown language.toList blocks) =
        doc.map (Block.markdown language.toList) := by
    rw [List.map_map]
    exact List.map_congr_left fun b _ => b.shown_toSection language.toList blocks
  have filled : ∀ html body converts, Section.text html body converts ∈ doc.map Block.toSection →
      collapse body ≠ [] := by
    intro html body converts mem
    obtain ⟨b, -, same⟩ := List.mem_map.1 mem
    exact Block.collapse_ne_nil same
  have trimmed : trim (doc.markdown language.toList) = doc.markdown language.toList := by
    cases doc with
    | nil => rfl
    | cons b doc =>
      have framed : Framed (Document.markdown language.toList (b :: doc)) :=
        .intercalate (by simp) (List.forall_mem_map.2 fun b _ => b.framed_markdown)
      exact framed.trim_eq
  rw [prose, String.toList_ofList, sections, proseText_sections language.toList filled, shown,
    ← Document.markdown, trimmed]

end DocIndex.Markup
