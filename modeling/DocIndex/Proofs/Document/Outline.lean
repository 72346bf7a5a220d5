import DocIndex.Proofs.Document.Entries

/-!
# The outline of a document

Over a sound snapshot the renderer writes for a declaration exactly the title, the line for its
kind, its documentation and the sections that have entries, in the order of its category
(`answers_render`, `render_outline`).
-/

namespace DocIndex

open Document Text

namespace Index

open Snapshot Table

variable {s : Snapshot} {i : UInt32} {d : Decl} (style : Style) (c : Config)

/-! ## Sections are written from their entries -/

theorem text_headed_entries (heading : String) {entries : List String} (solid : Solid entries) :
    (Part.headed heading (lines entries)).text = sectionText (some heading) entries :=
  text_headed_lines heading solid

theorem firm_code (html : String) : Firm (Markup.code html).toList := by
  rw [Markup.code, String.toList_ofList]
  exact Markup.firm_codeText _

theorem isBlankText_code_iff (html : String) :
    isBlankText (Markup.code html) = true ↔ Markup.code html = "" := by
  rw [isBlankText, allBlank, List.all_eq_true, ← words_eq_nil_iff,
    words_eq_nil_iff_of_firm (firm_code html), String.toList_eq_nil_iff]

theorem fenced_code (language html : String) :
    fenced language (Markup.code html) = Document.lines (codeEntries language html) := by
  rw [fenced, codeEntries]
  simp only [isBlankText_code_iff]
  split_ifs
  · rfl
  · exact String.intercalate_singleton.symm

theorem text_block_fenced (language html : String) :
    (Part.block (fenced language (Markup.code html))).text =
      sectionText none (codeEntries language html) := by
  rw [fenced_code, Part.text, sectionText]
  by_cases none : Markup.code html = ""
  · simp [codeEntries, none, Document.lines, blockText]
    rfl
  · have solid := solid_codeEntries language html
    rw [codeEntries, if_neg none] at solid ⊢
    rw [Solid, List.forall_mem_singleton] at solid
    rw [if_neg (List.cons_ne_nil _ _), Document.lines, String.intercalate_singleton,
      (blockText_of_firm solid.2 solid.1).2]
    rfl

theorem answers_paramsPart (sound : s.Sound) (hd : s.decl? i = some d) :
    Answers s (paramsPart ⟨i⟩)
      (.ok (.headed "Parameters" (Document.lines (s.entries style c i d .params)))) := by
  refine (answers_params hd).bind (Answers.bind ?_ (answers_pure s _))
  exact answers_numbered fun k lt => (answers_paramHtml sound hd lt).bind (answers_pure s _)

theorem filterMap_id_map_ite {α β : Type} (p : α → Prop) [DecidablePred p] (f : α → β)
    (l : List α) :
    (l.map fun a => if p a then none else some (f a)).filterMap id =
      (l.filter fun a => ¬ p a).map f := by
  induction l with
  | nil => rfl
  | cons a l ih =>
    rw [List.map_cons]
    by_cases out : p a
    · rw [if_pos out, List.filterMap_cons_none rfl, List.filter_cons_of_neg (by simpa), ih]
    · rw [if_neg out, List.filterMap_cons_some (f := id) rfl, List.filter_cons_of_pos (by simpa),
        List.map_cons, ih]

theorem answers_fieldLine (sound : s.Sound) (hd : s.decl? i = some d) {k : UInt32}
    (lt : k.toUInt64.toNat < d.fields.length) :
    Answers s (fieldLine ⟨i⟩ ⟨k⟩) (.ok (if Markup.code d.fields[k.toUInt64.toNat] = "" then none
      else some (fieldEntry d.fields[k.toUInt64.toNat]))) := by
  refine (answers_fieldHtml sound hd lt).bind ?_
  set html := d.fields[k.toUInt64.toNat]
  have same : Markup.codeText html.toList = (Markup.code html).toList :=
    String.toList_ofList.symm
  have blank : (oneLine (Markup.code html).toList).isEmpty = true ↔ Markup.code html = "" := by
    rw [List.isEmpty_iff, oneLine_eq_nil_iff, words_eq_nil_iff_of_firm (firm_code html),
      String.toList_eq_nil_iff]
  rw [same]
  simp only [blank]
  exact answers_pure s _

theorem answers_fieldsPart (sound : s.Sound) (hd : s.decl? i = some d) :
    Answers s (fieldsPart ⟨i⟩)
      (.ok (.headed "Fields" (Document.lines (s.entries style c i d .fields)))) := by
  have lines := answers_numbered
    (g := fun html => if Markup.code html = "" then none else some (fieldEntry html))
    fun k lt => answers_fieldLine sound hd lt
  rw [entries, ← filterMap_id_map_ite]
  exact (answers_fields hd).bind (lines.bind (answers_pure s _))

theorem answers_errorEntry (sound : s.Sound) (hd : s.decl? i = some d) (owner : Handle) {k : Nat}
    (small : k < 2 ^ 32) (lt : k < d.errors.length) :
    Answers s (errorEntry style owner ⟨errorRef i k⟩)
      (.ok (if (errorShown style.codeLanguage d.errors[k]).1 = "" then none
        else some (errorText style.codeLanguage d.errors[k]))) :=
  (answers_errorHtml sound hd owner small lt).bind (answers_pure s _)

/-- The errors are written whoever owns their set. -/
theorem exists_answers_errorParts (sound : s.Sound) (hd : s.decl? i = some d) :
    ∃ parts, Answers s (errorParts style ⟨i⟩) (.ok parts) ∧
      partsText parts = sectionText (some "Errors") (s.entries style c i d .errors) := by
  have solid : Solid (s.entries style c i d .errors) :=
    solid_entries style c sound (declares_of_decl? hd) .errors
  have asked := answers_errorSet hd
  cases set : d.errorSet with
  | none =>
    rw [set] at asked
    refine ⟨[], asked.bind (answers_pure s []), ?_⟩
    have none : s.entries style c i d .errors = [] := by
      simp [Snapshot.entries, Decl.errors, set, Slice.kept]
    rw [none]
    rfl
  | some e =>
    rw [set] at asked
    obtain ⟨owner, owned⟩ := returns_errorSetOwner sound hd
    refine ⟨[.headed "Errors" (Document.lines (s.entries style c i d .errors))], ?_, ?_⟩
    · rw [entries, ← filterMap_id_map_ite]
      refine asked.bind (owned.bind ((answers_errorSetEntries hd).bind ?_))
      refine Answers.bind (answers_mapM (List.forall₂_iff_get.2 ⟨?_, fun k hk hk' => ?_⟩))
        (answers_pure s _)
      · simp [Slice.kept]
      · rw [List.length_map] at hk'
        obtain ⟨small, lt⟩ := lt_of_lt_length_kept hk'
        simpa [Slice.kept] using answers_errorEntry style sound hd owner small lt
    · rw [partsText, List.map_singleton, text_headed_entries "Errors" solid]
      simp [String.join]

theorem answers_examplePart (sound : s.Sound) (hd : s.decl? i = some d) :
    Answers s (examplePart style ⟨i⟩)
      (.ok (.headed "Example" (Document.lines (s.entries style c i d .doctest)))) := by
  refine (answers_exampleHtml sound hd).bind ?_
  rw [fenced_code]
  exact answers_pure s _

theorem exists_answers_sourceParts (sound : s.Sound) (hd : s.decl? i = some d) :
    ∃ parts, Answers s (sourceParts style ⟨i⟩) (.ok parts) ∧
      partsText parts = sectionText (some "Source") (s.entries style c i d .source) := by
  have solid : Solid (s.entries style c i d .source) :=
    solid_entries style c sound (declares_of_decl? hd) .source
  unfold sourceParts
  rw [entries] at solid ⊢
  split_ifs at solid ⊢
  · refine ⟨_, (answers_sourceHtml sound hd).bind (answers_pure s _), ?_⟩
    rw [fenced_code, partsText, List.map_singleton, text_headed_entries "Source" solid]
    simp [String.join]
  · exact ⟨[], answers_pure s [], rfl⟩

theorem exists_answers_childParts (sound : s.Sound) (hd : s.decl? i = some d) :
    ∃ parts, Answers s (childParts c ⟨i⟩) (.ok parts) ∧
      partsText parts = String.join (Rubric.groups.map fun r =>
        sectionText r.heading (s.entries style c i d r)) := by
  have hi := declares_of_decl? hd
  refine ⟨_, (answers_listChildren sound hi).bind (answers_pure s _), ?_⟩
  rw [partsText, text_memberParts (listed_described c sound hi), Rubric.groups, List.map_map]
  refine congrArg String.join (List.map_congr_left fun g _ => ?_)
  simp only [groupText, Function.comp_apply, Rubric.heading, sectionText, entries,
    List.map_eq_nil_iff]
  rfl

/-- The sections of a declaration are written as its category has them. -/
theorem exists_answers_bodyParts (sound : s.Sound) (hd : s.decl? i = some d) (category : Category) :
    ∃ parts, Answers s (bodyParts style c ⟨i⟩ category) (.ok parts) ∧
      partsText parts = String.join (category.rubrics.map fun r =>
        sectionText r.heading (s.entries style c i d r)) := by
  have hi := declares_of_decl? hd
  have solid (r : Rubric) : Solid (s.entries style c i d r) := solid_entries style c sound hi r
  have signature : Answers s (signaturePart style ⟨i⟩) _ :=
    (answers_signatureHtml sound hd false).bind (answers_pure s _)
  have params := answers_paramsPart style c sound hd
  obtain ⟨errors, wrote_errors, errors_text⟩ :=
    exists_answers_errorParts style c sound hd
  have doctest := answers_examplePart style c sound hd
  obtain ⟨members, wrote_members, members_text⟩ :=
    exists_answers_childParts style c sound hd
  have fields := answers_fieldsPart style c sound hd
  obtain ⟨source, wrote_source, source_text⟩ :=
    exists_answers_sourceParts style c sound hd
  have single (p : Part) : partsText [p] = p.text := by simp [partsText, String.join]
  have pair (p q : Part) : partsText [p, q] = p.text ++ q.text := by simp [partsText, String.join]
  unfold bodyParts
  cases category with
  | nameSpace | container =>
    refine ⟨_, wrote_members.bind (fields.bind (answers_pure s _)), ?_⟩
    rw [partsText_append, members_text, single, text_headed_entries "Fields" (solid .fields)]
    simp [Category.rubrics, Rubric.heading]
  | function =>
    refine ⟨_, signature.bind (params.bind (wrote_errors.bind (doctest.bind
      (wrote_source.bind (answers_pure s _))))), ?_⟩
    rw [partsText_append, partsText_append, partsText_append, pair, errors_text, single,
      source_text, text_block_fenced, text_headed_entries "Parameters" (solid .params),
      text_headed_entries "Example" (solid .doctest)]
    simp [Category.rubrics, Rubric.heading, String.append_assoc, entries]
  | typeFunction =>
    refine ⟨_, signature.bind (params.bind (wrote_errors.bind (doctest.bind
      (wrote_members.bind (wrote_source.bind (answers_pure s _)))))), ?_⟩
    rw [partsText_append, partsText_append, partsText_append, partsText_append, pair, errors_text,
      single, members_text, source_text, text_block_fenced,
      text_headed_entries "Parameters" (solid .params),
      text_headed_entries "Example" (solid .doctest)]
    simp [Category.rubrics, Rubric.heading, String.append_assoc, entries]
  | errorSet =>
    refine ⟨_, wrote_errors.bind (wrote_source.bind (answers_pure s _)), ?_⟩
    rw [partsText_append, errors_text, source_text]
    simp [Category.rubrics, Rubric.heading]
  | _ =>
    refine ⟨source, wrote_source, ?_⟩
    rw [source_text]
    simp [Category.rubrics, Rubric.heading]

theorem text_block_prose (html language : String) :
    (Part.block (Markup.prose html language)).text =
      if Markup.prose html language = "" then "" else "\n\n" ++ Markup.prose html language := by
  rw [Part.text]
  split_ifs with none
  · rw [none]
    rfl
  · exact (blockText_of_firm (firm_prose html language) (by simpa using none)).2

theorem text_kindPart (category : Category) (name : String) :
    (kindPart category name).text =
      "\n\n" ++ ("*" ++ category.label ++ "* " ++ quoted name) := by
  have firm : Firm ("*" ++ category.label ++ "* " ++ quoted name).toList := by
    rw [String.toList_append]
    exact (firm_quoted name).append (by simp [quoted]) _
  exact (blockText_of_firm firm (by simp)).2

theorem answers_renderDecl (sound : s.Sound) (hd : s.decl? i = some d) (title : String) :
    Answers s (renderDecl style c title ⟨i⟩ d.category) (.ok (s.outline style c title i d)) := by
  obtain ⟨parts, wrote, text⟩ :=
    exists_answers_bodyParts style c sound hd d.category
  have docs : Answers s (docsPart style ⟨i⟩)
      (.ok (.block (Markup.prose d.docsHtml style.codeLanguage))) :=
    (answers_docsHtml sound hd false).bind (answers_pure s _)
  have laid : ofParts title (kindPart d.category d.name ::
      .block (Markup.prose d.docsHtml style.codeLanguage) :: parts) =
        s.outline style c title i d := by
    rw [ofParts, List.map_cons, List.map_cons, text_kindPart, text_block_prose, outline, ← text,
      partsText]
    simp [String.append_assoc]
  rw [← laid]
  exact (answers_declaredName sound hd).bind (docs.bind (wrote.bind (answers_pure s _)))

/-- A request that leads to a declaration is answered with the outline of that declaration. -/
theorem answers_render {r : Resolved} {t : UInt32} (sound : s.Sound) (below : r.isRoot = false)
    (shown : s.shown? r.handle.index = some (t, d)) (style : Style) (c : Config) :
    Answers s (render style c r) (.ok (some (s.outline style c r.title t d))) := by
  obtain ⟨followed, hd⟩ := shown?_eq_some_iff.1 shown
  obtain ⟨category, leads⟩ := exists_leads_of_follow sound.size_lt followed
  have concrete := leads.concrete?_eq sound.size_lt
  rw [render_eq style c below]
  refine (answers_unwind leads).bind ?_
  rw [concrete, shown]
  exact (answers_renderDecl style c sound hd r.title).bind (answers_pure s _)

/-- A request for the main module is answered with its documentation and the sections of what is
listed for it. -/
theorem answers_render_main {r : Resolved} {listed : List Member} (sound : s.Sound)
    (main : r.isRoot = true) (hd : s.decl? r.handle.index = some d)
    (found : Answers s (listRoot c .full) (.ok listed)) (style : Style) :
    Answers s (render style c r) (.ok (some (.ofParts r.title
      (kindPart .nameSpace c.publicAlias ::
        .block (Markup.prose d.docsHtml style.codeLanguage) :: memberParts listed)))) := by
  have docs : Answers s (docsPart style r.handle)
      (.ok (.block (Markup.prose d.docsHtml style.codeLanguage))) :=
    (answers_docsHtml sound hd false).bind (answers_pure s _)
  have members : Answers s (rootParts c) (.ok (memberParts listed)) :=
    found.bind (answers_pure s _)
  have written : Answers s (renderRoot style c r) _ :=
    docs.bind (members.bind (answers_pure s _))
  unfold render
  rw [main, if_pos rfl]
  exact written.bind (answers_pure s _)

end Index

/-! ## Documents follow their declarations -/

open Index

variable {s : Snapshot} {style : Style} {c : Config} {d : Decl} {t : UInt32}

/-- The document of a declaration has the sections of its category in their order, each at most once
and exactly if there is something in it: the parameters on one line each, the fields with code on
one line each, the errors with a name, and the signature, the example and the source if they have
code. -/
theorem render_outline (sound : s.Sound) {r : Resolved} (below : r.isRoot = false)
    (shown : s.shown? r.handle.index = some (t, d)) (style : Style) (c : Config) :
    Answers s (render style c r) (.ok (some (s.outline style c r.title t d))) ∧
    d.category.rubrics.Nodup ∧ (d.category.rubrics.map Rubric.heading).Nodup ∧
    (∀ rubric, ∀ e ∈ s.entries style c t d rubric, words e.toList ≠ []) ∧
    (d.params.length < 2 ^ 32 → s.entries style c t d .params = d.params.map paramEntry) ∧
    (d.fields.length < 2 ^ 32 → s.entries style c t d .fields =
      (d.fields.filter fun html => Markup.code html ≠ "").map fieldEntry) ∧
    (∀ e ∈ s.entries style c t d .params ++ s.entries style c t d .fields, '\n' ∉ e.toList) ∧
    (d.errors.length < 2 ^ 32 → (s.entries style c t d .errors ≠ [] ↔
      ∃ e ∈ d.errors, (errorShown style.codeLanguage e).1 ≠ "")) ∧
    (s.entries style c t d .signature ≠ [] ↔ Markup.code d.signatureHtml ≠ "") ∧
    (s.entries style c t d .doctest ≠ [] ↔ Markup.code d.exampleHtml ≠ "") ∧
    (s.entries style c t d .source ≠ [] ↔
      style.includeSource = true ∧ Markup.code d.sourceHtml ≠ "") := by
  have hi : s.Declares t :=
    Snapshot.declares_of_decl? (Snapshot.shown?_eq_some_iff.1 shown).2
  refine ⟨answers_render sound below shown style c, (nodup_rubrics d.category).1,
    (nodup_rubrics d.category).2, fun rubric e he => ?_, fun few => ?_, fun few => ?_,
    fun e he => ?_, fun few => ?_, codeEntries_ne_nil_iff _ _, codeEntries_ne_nil_iff _ _, ?_⟩
  · obtain ⟨filled, firm⟩ := solid_entries style c sound hi rubric e he
    rwa [Ne, words_eq_nil_iff_of_firm firm]
  · rw [Snapshot.entries, Slice.kept_eq_self few]
  · rw [Snapshot.entries, Slice.kept_eq_self few]
  · rcases List.mem_append.1 he with he | he
    · obtain ⟨html, -, rfl⟩ := List.mem_map.1 he
      exact newline_notMem_paramEntry html
    · obtain ⟨html, -, rfl⟩ := List.mem_map.1 he
      exact newline_notMem_fieldEntry html
  · rw [Snapshot.entries, Slice.kept_eq_self few]
    simp
  · rw [Snapshot.entries]
    split_ifs with included
    · simp [included, codeEntries_ne_nil_iff]
    · simp [included]

/-- A function with all that documents show of one. -/
def Decl.opening : Decl where
  name := "open"
  parent := some 0
  category := .function
  docsHtml := "<p>Opens a file.</p>"
  signatureHtml := "fn open(path: []const u8, _: Mode) !<b>File</b>"
  params := ["path: []const u8", "<br>"]
  errorSet := some { owner := some 0, errors := [⟨"NotFound", "<p>No such file.</p>"⟩, ⟨"", ""⟩] }
  exampleHtml := "<br>"
  sourceHtml := "fn open() \x7b\n\x7d\n"

/-- A snapshot with a function and an alias for it. -/
def Snapshot.opening : Snapshot where
  modules := [⟨"root", 0⟩]
  decls := #[
    { name := "root", category := .nameSpace, members := [1, 2] },
    .opening,
    { name := "openFile", parent := some 0, category := .redirect, aliasee := some 1 }]

theorem sound_opening : Snapshot.opening.Sound :=
  ⟨by decide +kernel, by decide +kernel⟩

example :
    (Snapshot.opening.outline { includeSource := true } {} "std.open" 1 .opening).markdown =
      "# std.open\n\n*function* \x60open\x60\n\nOpens a file.\n\n\x60\x60\x60zig\n" ++
      "fn open(path: []const u8, _: Mode) !File\n\x60\x60\x60\n\n## Parameters\n\n" ++
      "- path: []const u8\n- *(unnamed)*\n\n## Errors\n\n" ++
      "- \x60NotFound\x60\n  No such file.\n\n" ++
      "## Source\n\n\x60\x60\x60zig\nfn open() \x7b\n\x7d\n\x60\x60\x60\n" := by
  decide +kernel

theorem render_outline_opening : Snapshot.opening.Sound ∧
    Snapshot.opening.shown? 2 = some (1, .opening) ∧
    Answers Snapshot.opening (render {} {} ⟨⟨2⟩, .direct, "openFile", "std.openFile"⟩)
      (.ok (some (Snapshot.opening.outline {} {} "std.openFile" 1 .opening))) ∧
    Snapshot.opening.entries {} {} 1 .opening .params =
      ["- path: []const u8", "- *(unnamed)*"] := by
  have shown : Snapshot.opening.shown? 2 = some (1, .opening) := by decide +kernel
  obtain ⟨laid, -, -, -, params, -⟩ := render_outline sound_opening
    (r := ⟨⟨2⟩, .direct, "openFile", "std.openFile"⟩) rfl shown {} {}
  refine ⟨sound_opening, shown, laid, ?_⟩
  rw [params (by decide)]
  decide +kernel

end DocIndex
