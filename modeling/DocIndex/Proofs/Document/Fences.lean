import DocIndex.Proofs.Document.Outline
import DocIndex.Proofs.Markup.Fence
import DocIndex.Proofs.Markup.Section
import DocIndex.Proofs.Session.Faultless

/-!
# Fences in documents

Documents show the signature, the example and the source of a declaration in fences, and so the
`pre` blocks of its documentation (`Decl.Quotes`). Each fence stands on lines of its own, and is
read back as the code in it exactly if no line of that code closes the fence (`render_fences`).
-/

namespace DocIndex

open Document Index Markup Text

variable {s : Snapshot} {style : Style} {c : Config} {d : Decl} {r : Resolved} {i : UInt32}

/-- The HTML of the code that a section shows. -/
def Rubric.listing? (style : Style) (d : Decl) : Rubric → Option String
  | .signature => some d.signatureHtml
  | .doctest => some d.exampleHtml
  | .source => if style.includeSource then some d.sourceHtml else none
  | _ => none

/-- The declaration that the document for a resolved name shows. -/
def Snapshot.subject? (s : Snapshot) (r : Resolved) : Option Decl :=
  if r.isRoot then s.decl? r.handle.index else (s.shown? r.handle.index).map Prod.snd

/-- Whether a piece of code stands in the document of a declaration. That of the main module has no
code but in its documentation. -/
inductive Decl.Quotes (style : Style) (d : Decl) : (main : Bool) → (code : List Char) → Prop
  | listing (rubric : Rubric) {html : String} : rubric ∈ d.category.rubrics →
    rubric.listing? style d = some html → Markup.code html ≠ "" →
    Quotes style d false (Markup.code html).toList
  | docs {main : Bool} (before after : List Stretch) {html inner : List Char}
    (found : Rewrites preformatted.scan html [.found inner]) :
    d.docsHtml.toList = (before ++ .block html inner found :: after).flatMap Stretch.html →
    Quotes style d main (codeText inner)

namespace Document

/-! ## What stands below a fence -/

/-- Whether a text is empty or starts with the end of a line. -/
def Detached (text : String) : Prop :=
  ∀ c ∈ text.toList.head?, c = '\n'

theorem Detached.append {a b : String} (ha : Detached a) (hb : Detached b) : Detached (a ++ b) := by
  intro c hc
  rw [String.toList_append, List.head?_append, Option.mem_def, Option.or_eq_some_iff] at hc
  exact hc.elim (ha c) fun hc => hb c hc.2

theorem detached_join {l : List String} (h : ∀ a ∈ l, Detached a) : Detached (String.join l) := by
  induction l with
  | nil => exact nofun
  | cons a l ih =>
    rw [List.forall_mem_cons] at h
    rw [String.join_cons]
    exact h.1.append (ih h.2)

theorem detached_sectionText (heading : Option String) (entries : List String) :
    Detached (sectionText heading entries) := by
  rw [sectionText]
  split_ifs
  · simp [Detached]
  · cases heading <;> simp [Detached]

theorem detached_text (p : Part) : Detached p.text := by
  have block (text : String) : Detached (blockText text) := by
    rw [blockText]
    split_ifs <;> simp [Detached]
  cases p with
  | block text => exact block text
  | headed heading body =>
    rw [Part.text]
    split_ifs <;> simp [Detached]

theorem Detached.exists_newline {text : String} (h : Detached text) :
    ∃ rest, (text ++ "\n").toList = '\n' :: rest := by
  rw [String.toList_append]
  rcases same : text.toList with _ | ⟨c, rest⟩
  · exact ⟨[], rfl⟩
  · have first : c = '\n' := h c (by simp [same])
    exact ⟨rest ++ ['\n'], by rw [first]; rfl⟩

/-! ## Fences in documents -/

/-- Documentation shows the code of its `pre` blocks in fences, whatever stands in front of it and
below it. -/
theorem fenced_docs {language : String} {before after : List Stretch} {html inner : List Char}
    {found : Rewrites preformatted.scan html [.found inner]} {docsHtml : String}
    (whole : docsHtml.toList = (before ++ .block html inner found :: after).flatMap Stretch.html)
    (front : String) {back : String} (detached : Detached back) :
    Fenced language.toList (codeText inner) (front ++
      (if Markup.prose docsHtml language = "" then ""
        else "\n\n" ++ Markup.prose docsHtml language) ++ back ++ "\n").toList := by
  obtain ⟨rest, below⟩ := detached.exists_newline
  have fenced := fenced_proseText language.toList before after found rest
  have prose_eq : proseText language.toList docsHtml.toList =
      (Markup.prose docsHtml language).toList := String.toList_ofList.symm
  rw [← whole, prose_eq] at fenced
  have filled : Markup.prose docsHtml language ≠ "" := by
    obtain ⟨a, b, shown, -⟩ := exists_proseText_block_eq language.toList before after found
    rw [Markup.prose, whole, shown]
    simp [fence]
  rw [if_neg filled, String.append_assoc, String.append_assoc, String.toList_append,
    String.toList_append, below]
  simpa using fenced.append front.toList []

/-- A section with code shows it in a fence, wherever it stands among the sections. -/
theorem fenced_sections {language html : String} (filled : Markup.code html ≠ "")
    {rubrics : List Rubric} {entries : Rubric → List String} {rubric : Rubric}
    (member : rubric ∈ rubrics) (shown : entries rubric = codeEntries language html)
    (front : String) :
    Fenced language.toList (Markup.code html).toList (front ++
      String.join (rubrics.map fun r => sectionText r.heading (entries r)) ++ "\n").toList := by
  obtain ⟨above, below, rfl⟩ := List.append_of_mem member
  have detached : Detached (String.join (below.map fun r => sectionText r.heading (entries r))) :=
    detached_join (List.forall_mem_map.2 fun r _ => detached_sectionText _ _)
  obtain ⟨rest, behind⟩ := detached.exists_newline
  have fenced : Fenced language.toList (Markup.code html).toList
      ((sectionText rubric.heading (codeEntries language html)).toList ++ '\n' :: rest) := by
    rw [codeEntries, if_neg filled, sectionText, if_neg (List.cons_ne_nil _ _)]
    refine ⟨((rubric.heading.map fun h => "\n\n## " ++ h).getD "").toList, rest, ?_⟩
    simp [Document.lines]
  rw [List.map_append, List.map_cons, String.join_append, String.join_cons, shown]
  set before := String.join (above.map fun r => sectionText r.heading (entries r))
  have whole := fenced.append (front ++ before).toList []
  rw [List.append_nil, ← behind] at whole
  simpa [String.append_assoc] using whole

end Document

/-! ## Documents as a whole -/

theorem Snapshot.entries_of_listing? {rubric : Rubric} {html : String}
    (shown : rubric.listing? style d = some html) :
    s.entries style c i d rubric = codeEntries style.codeLanguage html := by
  cases rubric with
  | signature | doctest =>
    cases shown
    rfl
  | source =>
    rw [Rubric.listing?] at shown
    split_ifs at shown with included
    cases shown
    rw [Snapshot.entries, if_pos included]
  | _ => cases shown

theorem fenced_outline (title : String) {code : List Char} (quoted : d.Quotes style false code) :
    Fenced style.codeLanguage.toList code (s.outline style c title i d).markdown.toList := by
  rw [Snapshot.outline]
  cases quoted with
  | listing rubric member shown filled =>
    exact fenced_sections filled member (Snapshot.entries_of_listing? shown) _
  | docs before after found whole =>
    refine fenced_docs whole _ (detached_join (List.forall_mem_map.2 fun rubric _ => ?_))
    exact detached_sectionText _ _

theorem fenced_mainDocument (c : Config) (title : String) (listed : List Member) {code : List Char}
    (quoted : d.Quotes style true code) :
    Fenced style.codeLanguage.toList code (Document.ofParts title
      (kindPart .nameSpace c.publicAlias ::
        .block (Markup.prose d.docsHtml style.codeLanguage) ::
          memberParts listed)).markdown.toList := by
  cases quoted with
  | docs before after found whole =>
    have detached : Detached (String.join ((memberParts listed).map Document.Part.text)) :=
      detached_join (List.forall_mem_map.2 fun p _ => detached_text p)
    rw [ofParts, List.map_cons, List.map_cons, text_block_prose, String.join_cons, String.join_cons,
      ← String.append_assoc, ← String.append_assoc]
    exact fenced_docs whole _ detached

/-- The signature, the example and the source of a declaration and the `pre` blocks of its
documentation stand in fences, each with an empty line above. Such a fence is read back as the code
in it exactly if no line of the code closes the fence. -/
theorem render_fences (sound : s.Sound) (subject : s.subject? r = some d)
    (few : r.isRoot = true → s.modules.length < 2 ^ 32)
    (short : r.isRoot = true → Utf8.Short c.publicAlias) (style : Style)
    (tag : '\n' ∉ style.codeLanguage.toList) :
    ∃ document, Answers s (render style c r) (.ok (some document)) ∧
      ∀ code, d.Quotes style r.isRoot code → ∃ front back,
        document.markdown.toList =
          front ++ '\n' :: '\n' :: (fence style.codeLanguage.toList code ++ '\n' :: back) ∧
        (readFence (fence style.codeLanguage.toList code ++ '\n' :: back) = code ↔
          closingLine ∉ code.splitOn '\n') := by
  obtain ⟨document, answer, fenced⟩ : ∃ document,
      Answers s (render style c r) (.ok (some document)) ∧
        ∀ code, d.Quotes style r.isRoot code →
          Fenced style.codeLanguage.toList code document.markdown.toList := by
    cases main : r.isRoot with
    | true =>
      rw [Snapshot.subject?, if_pos main] at subject
      have found : Answers s (listRoot c .full) _ := answers_listRoot sound (few main) (short main)
      exact ⟨_, answers_render_main c sound main subject found style,
        fun code quoted => fenced_mainDocument c r.title _ quoted⟩
    | false =>
      rw [Snapshot.subject?, main, if_neg Bool.false_ne_true] at subject
      obtain ⟨⟨t, d⟩, shown, rfl⟩ := Option.map_eq_some_iff.1 subject
      exact ⟨_, answers_render sound main shown style c, fun code quoted => fenced_outline _ quoted⟩
  refine ⟨document, answer, fun code quoted => ?_⟩
  obtain ⟨front, back, whole⟩ := fenced code quoted
  exact ⟨front, back, whole, readFence_fence_iff tag back⟩

/-- A function whose documentation shows how code is fenced. -/
def Decl.quoting : Decl where
  name := "render"
  parent := some 0
  category := .function
  docsHtml := "<pre>\x60\x60\x60zig\nx\n\x60\x60\x60</pre>"
  signatureHtml := "fn render() void"

/-- A snapshot with a function whose documentation holds a fence. -/
def Snapshot.quoting : Snapshot where
  modules := [⟨"root", 0⟩]
  decls := #[{ name := "root", category := .nameSpace, members := [1] }, .quoting]

theorem sound_quoting : Snapshot.quoting.Sound :=
  ⟨by decide +kernel, by decide +kernel⟩

/-- The code in the documentation of that function. -/
def quotedFence : List Char :=
  "\x60\x60\x60zig\nx\n\x60\x60\x60".toList

theorem render_fences_quoting : Snapshot.quoting.Sound ∧
    Snapshot.quoting.subject? ⟨⟨1⟩, .direct, "render", "std.render"⟩ = some .quoting ∧
    ∃ document, Answers Snapshot.quoting
        (render {} {} ⟨⟨1⟩, .direct, "render", "std.render"⟩) (.ok (some document)) ∧
      (∃ front back, document.markdown.toList = front ++ '\n' :: '\n' ::
          (fence "zig".toList "fn render() void".toList ++ '\n' :: back) ∧
        readFence (fence "zig".toList "fn render() void".toList ++ '\n' :: back) =
          "fn render() void".toList) ∧
      ∃ front back, document.markdown.toList = front ++ '\n' :: '\n' ::
          (fence "zig".toList quotedFence ++ '\n' :: back) ∧
        readFence (fence "zig".toList quotedFence ++ '\n' :: back) ≠
          quotedFence := by
  have subject : Snapshot.quoting.subject? ⟨⟨1⟩, .direct, "render", "std.render"⟩ =
      some .quoting := by decide +kernel
  obtain ⟨document, answer, fenced⟩ := render_fences (c := {}) sound_quoting subject nofun
    nofun {} (by decide)
  refine ⟨sound_quoting, subject, document, answer, ?_, ?_⟩
  · have plain : Markup.code "fn render() void" = "fn render() void" := by decide +kernel
    have quoted : Decl.quoting.Quotes {} false (Markup.code "fn render() void").toList :=
      .listing .signature (by decide) rfl (by rw [plain]; decide)
    obtain ⟨front, back, whole, reading⟩ := fenced _ quoted
    rw [plain] at whole reading
    exact ⟨front, back, whole, reading.2 (by decide)⟩
  · have plain : codeText quotedFence = quotedFence := by decide +kernel
    have quoted : Decl.quoting.Quotes {} false (codeText quotedFence) :=
      .docs [] [] (⟨[], quotedFence, List.not_mem_nil, rfl⟩ : Listing).rewrites_scan
        (by decide +kernel)
    obtain ⟨front, back, whole, reading⟩ := fenced _ quoted
    rw [plain] at whole reading
    exact ⟨front, back, whole, fun same => reading.1 same (by decide)⟩

/-- The fence of code that has a line of three backticks ends at that line. -/
theorem fence_closed_by_code :
    (Snapshot.quoting.outline {} {} "std.render" 1 .quoting).markdown =
      "# std.render\n\n*function* \x60render\x60\n\n\x60\x60\x60zig\n\x60\x60\x60zig\nx\n" ++
      "\x60\x60\x60\n\x60\x60\x60\n\n\x60\x60\x60zig\nfn render() void\n\x60\x60\x60\n" ∧
    Markup.code "\x60\x60\x60zig\nx\n\x60\x60\x60" = "\x60\x60\x60zig\nx\n\x60\x60\x60" ∧
    readFence ("\x60\x60\x60zig\n\x60\x60\x60zig\nx\n\x60\x60\x60\n\x60\x60\x60\n\n" ++
      "\x60\x60\x60zig\nfn render() void\n\x60\x60\x60\n").toList =
        "\x60\x60\x60zig\nx".toList := by
  decide +kernel

end DocIndex
