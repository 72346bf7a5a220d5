import DocIndex.Proofs.Document.Outline
import DocIndex.Proofs.Markup.Definition
import DocIndex.Proofs.Markup.LineEnds

/-!
# Errors in documents

The errors of a declaration stand in its document line by line: each has a line for its name, and
below it the lines of its description with two spaces in front (`errorLines`). So the lines that
start with a dash are those of the names, and without the spaces each description is given back
exactly if none of its lines ends with a carriage return. Only the language of code can bring these
in (`render_errors`).
-/

namespace DocIndex

open Document Index Text

variable {s : Snapshot} {d : Decl} {t : UInt32} {e : ErrorEntry} {language : String}

namespace Document

/-- The line for the name of an error. -/
def errorLine (e : ErrorEntry) : List Char :=
  "- \x60".toList ++ e.name.toList ++ ['\x60']

/-- The lines for an error: its name, and its description with two spaces in front of every line
that is not empty. -/
def errorLines (language : String) (e : ErrorEntry) : List (List Char) :=
  errorLine e ::
    if Markup.prose e.docsHtml language = "" then []
    else ((Markup.prose e.docsHtml language).toList.splitOn '\n').map fun line =>
      padded 2 (dropReturn line)

/-- Whether name and description of an error can be told apart. -/
def Separable (e : ErrorEntry) : Prop :=
  Markup.IsName e.name.toList ∧ Markup.Unclosed e.docsHtml.toList

instance (e : ErrorEntry) : Decidable (Separable e) :=
  inferInstanceAs (Decidable (_ ∧ _))

theorem errorText_eq (separable : Separable e) (language : String) :
    errorText language e = String.ofList (joinLines (errorLines language e)) := by
  have shown : errorShown language e = (e.name, Markup.prose e.docsHtml language) :=
    Markup.definition_errorHtml separable.1 separable.2 language
  have name : "- " ++ quoted e.name = String.ofList (errorLine e) := by
    apply String.toList_inj.1
    simp [quoted, errorLine]
  rw [errorText, shown, errorLines, entryWith]
  split_ifs with bare
  · rw [name, joinLines, List.intercalate_singleton]
  · set body := Markup.prose e.docsHtml language
    have firm : Firm body.toList := firm_prose _ _
    have ne : body.toList ≠ [] := by simpa using bare
    have below : indent 2 body.toList =
        joinLines ((body.toList.splitOn '\n').map fun line => padded 2 (dropReturn line)) := by
      rw [indent_eq, lines_of_firm firm ne, List.map_map]
      rfl
    apply String.toList_inj.1
    rw [below, name, joinLines, joinLines, intercalate_cons_of_ne_nil (by simp)]
    simp

theorem newline_notMem_errorLines (separable : Separable e) (language : String) :
    ∀ line ∈ errorLines language e, '\n' ∉ line := by
  rw [errorLines, List.forall_mem_cons]
  constructor
  · have name : '\n' ∉ e.name.toList := separable.1.notMem (by decide)
    simp [errorLine, name]
  · split_ifs
    · exact List.forall_mem_nil _
    · refine List.forall_mem_map.2 fun line hline => ?_
      rw [padded]
      split_ifs
      · exact List.not_mem_nil
      · have apart : '\n' ∉ dropReturn line :=
          fun mem => newline_notMem_of_mem_splitOn hline (mem_of_mem_dropReturn mem)
        simpa using apart

/-- The lines of errors one below the other. -/
theorem splitOn_errorTexts {l : List ErrorEntry} (separable : ∀ e ∈ l, Separable e) (ne : l ≠ [])
    (language : String) :
    (lines (l.map (errorText language))).toList.splitOn '\n' = l.flatMap (errorLines language) := by
  have texts : (lines (l.map (errorText language))).toList =
      joinLines (l.map fun e => joinLines (errorLines language e)) := by
    rw [lines, String.toList_intercalate, List.map_map]
    refine congrArg joinLines (List.map_congr_left fun e he => ?_)
    rw [Function.comp_apply, errorText_eq (separable e he), String.toList_ofList]
  rw [texts, splitOn_joinLines (by simpa using ne), List.flatMap_map]
  refine List.flatMap_congr fun e he => ?_
  exact List.splitOn_intercalate '\n' (newline_notMem_errorLines (separable e he) language)
    (List.cons_ne_nil _ _)

/-- The line for the name is the only one of an error that starts with a dash. -/
theorem filter_errorLines (language : String) (e : ErrorEntry) :
    (errorLines language e).filter (·.head? = some '-') = [errorLine e] := by
  have below : ∀ line : List Char, (padded 2 line).head? ≠ some '-' := by
    intro line
    rw [padded]
    split_ifs
    · simp
    · simp [List.replicate_succ]
  rw [errorLines, List.filter_cons_of_pos (by simp [errorLine]), List.cons.injEq,
    List.filter_eq_nil_iff]
  refine ⟨rfl, ?_⟩
  split_ifs
  · exact List.forall_mem_nil _
  · refine List.forall_mem_map.2 fun line _ => ?_
    simpa using below (dropReturn line)

/-- The lines below the name without the spaces in front. -/
theorem joinLines_drop_errorLines (language : String) (e : ErrorEntry) :
    joinLines ((errorLines language e).tail.map (List.drop 2)) =
      joinLines (((Markup.prose e.docsHtml language).toList.splitOn '\n').map dropReturn) := by
  rw [errorLines, List.tail_cons]
  split_ifs with bare
  · rw [bare]
    rfl
  · rw [List.map_map]
    exact congrArg joinLines (List.map_congr_left fun line _ => drop_padded 2 (dropReturn line))

end Document

/-- The errors of a function or an error set are shown in order: each has a line for its name, and
below it its description with two spaces in front of every line that is not empty. No other line of
the section starts with a dash. Without the spaces the description is given back, but for carriage
returns in front of line ends, so exactly if it has none there; and it has none if no line of the
language ends with one. A section without errors is left out, and who owns the errors does not
matter. -/
theorem render_errors (sound : s.Sound) {r : Resolved} (below : r.isRoot = false)
    (shown : s.shown? r.handle.index = some (t, d))
    (erring : d.category ∈ [.function, .typeFunction, .errorSet]) (few : d.errors.length < 2 ^ 32)
    (separable : ∀ e ∈ d.errors, Separable e) (style : Style) (c : Config) :
    Answers s (render style c r) (.ok (some (s.outline style c r.title t d))) ∧
    .errors ∈ d.category.rubrics ∧
    s.entries style c t d .errors =
      d.errors.map (fun e => String.ofList (joinLines (errorLines style.codeLanguage e))) ∧
    (sectionText (some "Errors") (s.entries style c t d .errors) = "" ↔
      ∀ set ∈ d.errorSet, set.errors = []) ∧
    ((lines (s.entries style c t d .errors)).toList.splitOn '\n').filter (·.head? = some '-') =
      d.errors.map errorLine ∧
    (∀ e ∈ d.errors, joinLines ((errorLines style.codeLanguage e).tail.map (List.drop 2)) =
      joinLines
        (((Markup.prose e.docsHtml style.codeLanguage).toList.splitOn '\n').map dropReturn)) ∧
    (∀ e ∈ d.errors, joinLines ((errorLines style.codeLanguage e).tail.map (List.drop 2)) =
        (Markup.prose e.docsHtml style.codeLanguage).toList ↔
      Returnless (Markup.prose e.docsHtml style.codeLanguage).toList) ∧
    (Returnless style.codeLanguage.toList → ∀ e ∈ d.errors,
      joinLines ((errorLines style.codeLanguage e).tail.map (List.drop 2)) =
        (Markup.prose e.docsHtml style.codeLanguage).toList) ∧
    ∀ owner, s.entries style c t
        { d with errorSet := d.errorSet.map fun set => { set with owner := owner } } .errors =
      s.entries style c t d .errors := by
  have kept : s.entries style c t d .errors = d.errors.map (errorText style.codeLanguage) := by
    rw [Snapshot.entries, Slice.kept_eq_self few, List.filter_eq_self.2]
    intro e he
    have name : errorShown style.codeLanguage e = (e.name, _) :=
      Markup.definition_errorHtml (separable e he).1 (separable e he).2 _
    simpa [name] using (separable e he).1.1
  have given_back_iff (e : ErrorEntry) :
      joinLines ((errorLines style.codeLanguage e).tail.map (List.drop 2)) =
          (Markup.prose e.docsHtml style.codeLanguage).toList ↔
        Returnless (Markup.prose e.docsHtml style.codeLanguage).toList := by
    rw [joinLines_drop_errorLines, joinLines_map_dropReturn_eq_self_iff]
  refine ⟨answers_render sound below shown style c, ?_, ?_, ?_, ?_, ?_, fun e _ => given_back_iff e,
    ?_, ?_⟩
  · simp only [List.mem_cons, List.not_mem_nil, or_false] at erring
    rcases erring with same | same | same
    · rw [same]
      decide
    · rw [same]
      decide
    · rw [same]
      decide
  · rw [kept]
    exact List.map_congr_left fun e he => errorText_eq (separable e he) _
  · rw [kept, sectionText_eq_empty_iff, List.map_eq_nil_iff, Decl.errors]
    cases d.errorSet <;> simp
  · rw [kept]
    by_cases none : d.errors = []
    · rw [none]
      rfl
    · rw [splitOn_errorTexts separable none, List.filter_flatMap,
        List.flatMap_congr fun e _ => filter_errorLines _ e, List.map_eq_flatMap]
  · exact fun e _ => joinLines_drop_errorLines _ e
  · intro returnless e _
    rw [given_back_iff, Markup.prose, String.toList_ofList]
    exact Markup.returnless_prose returnless _
  · intro owner
    have same : Decl.errors
        { d with errorSet := d.errorSet.map fun set => { set with owner := owner } } =
          d.errors := by
      rw [Decl.errors, Decl.errors, Option.map_map]
      rfl
    rw [Snapshot.entries, Snapshot.entries, same]

/-- An error set with a description that holds code. -/
def Decl.failure : Decl where
  name := "Failure"
  parent := some 0
  category := .errorSet
  errorSet := some { errors := [⟨"Bad", "<pre>x</pre>"⟩, ⟨"Worse_2", ""⟩] }

/-- A snapshot with an error set. -/
def Snapshot.failing : Snapshot where
  modules := [⟨"root", 0⟩]
  decls := #[{ name := "root", category := .nameSpace, members := [1] }, .failure]

theorem sound_failing : Snapshot.failing.Sound :=
  ⟨by decide +kernel, by decide +kernel⟩

theorem render_errors_failing : Snapshot.failing.Sound ∧
    Snapshot.failing.shown? 1 = some (1, .failure) ∧ (∀ e ∈ Decl.failure.errors, Separable e) ∧
    (lines (Snapshot.failing.entries {} {} 1 .failure .errors)).toList.splitOn '\n' =
      ["- \x60Bad\x60".toList, "  \x60\x60\x60zig".toList, "  x".toList,
        "  \x60\x60\x60".toList, "- \x60Worse_2\x60".toList] ∧
    ((lines (Snapshot.failing.entries {} {} 1 .failure .errors)).toList.splitOn '\n').filter
        (·.head? = some '-') = Decl.failure.errors.map errorLine := by
  have shown : Snapshot.failing.shown? 1 = some (1, .failure) := by decide +kernel
  have separable : ∀ e ∈ Decl.failure.errors, Separable e := by decide +kernel
  obtain ⟨-, -, -, -, dashes, -⟩ := render_errors sound_failing
    (r := ⟨⟨1⟩, .direct, "Failure", "std.Failure"⟩) rfl shown (by decide) (by decide) separable
    {} {}
  exact ⟨sound_failing, shown, separable, by decide +kernel, dashes⟩

/-- If the language ends with a carriage return, it is lost from the description. -/
theorem description_of_return :
    (Snapshot.failing.outline { codeLanguage := "zig\r" } {} "std.Failure" 1 .failure).markdown =
      "# std.Failure\n\n*error set* \x60Failure\x60\n\n## Errors\n\n" ++
      "- \x60Bad\x60\n  \x60\x60\x60zig\n  x\n  \x60\x60\x60\n- \x60Worse_2\x60\n" ∧
    (Markup.prose "<pre>x</pre>" "zig\r") = "\x60\x60\x60zig\r\nx\n\x60\x60\x60" ∧
    joinLines ((errorLines "zig\r" ⟨"Bad", "<pre>x</pre>"⟩).tail.map (List.drop 2)) ≠
      (Markup.prose "<pre>x</pre>" "zig\r").toList := by
  decide +kernel

end DocIndex
