import DocIndex.Proofs.Document.Groups
import DocIndex.Proofs.Index.Members
import DocIndex.Proofs.Markup.Code
import DocIndex.Proofs.Markup.Stretch
import DocIndex.Proofs.Text.Lines

/-!
# The entries of a document

The document of a declaration has the sections that its category has, its `rubrics`, in their order.
Each is made of entries (`Snapshot.entries`) and is left out if there are none. No entry is empty or
ends in white space (`solid_entries`), and what is meant for one line stays on it.
-/

namespace DocIndex

open Document Text

/-! ## Sections -/

/-- A section of a document. -/
inductive Rubric where
  | signature
  | params
  | errors
  | doctest
  | members (heading : String) (set : CategorySet)
  | fields
  | source
  deriving DecidableEq

namespace Rubric

/-- The heading of the section. A signature stands on its own. -/
def heading : Rubric → Option String
  | signature => none
  | params => some "Parameters"
  | errors => some "Errors"
  | doctest => some "Example"
  | members heading _ => some heading
  | fields => some "Fields"
  | source => some "Source"

/-- The sections for the groups of members. -/
def groups : List Rubric :=
  memberGroups.map fun (heading, set) => members heading set

end Rubric

open Rubric in
/-- The sections that documents of a category may have, in their order. -/
def Category.rubrics : Category → List Rubric
  | nameSpace | container => groups ++ [fields]
  | function => [signature, params, Rubric.errors, doctest, source]
  | typeFunction => [signature, params, Rubric.errors, doctest] ++ groups ++ [source]
  | errorSet => [Rubric.errors, source]
  | _ => [source]

/-- No section comes twice, and neither does a heading. -/
theorem nodup_rubrics (category : Category) :
    category.rubrics.Nodup ∧ (category.rubrics.map Rubric.heading).Nodup := by
  cases category <;> decide

namespace Document

/-- A section of entries on lines of their own, which is left out if there are none. -/
def sectionText (heading : Option String) (entries : List String) : String :=
  if entries = [] then ""
  else (heading.map fun h => "\n\n## " ++ h).getD "" ++ "\n\n" ++ lines entries

theorem sectionText_eq_empty_iff {heading : Option String} {entries : List String} :
    sectionText heading entries = "" ↔ entries = [] := by
  rw [sectionText]
  split_ifs with none
  · simp [none]
  · simp [none]

/-! ## Entries -/

/-- Code in a fence, unless there is none. -/
def codeEntries (language html : String) : List String :=
  if Markup.code html = "" then []
  else [String.ofList (Markup.fence language.toList (Markup.code html).toList)]

/-- A parameter on one line, with a placeholder for one without text. -/
def paramEntry (html : String) : String :=
  if Markup.inline html = "" then "- *(unnamed)*" else "- " ++ Markup.inline html

/-- A field on one line, as code. -/
def fieldEntry (html : String) : String :=
  "- " ++ quoted (String.ofList (oneLine (Markup.code html).toList))

/-- The name and the description that are shown for an error. -/
def errorShown (language : String) (e : ErrorEntry) : String × String :=
  Markup.definition (Snapshot.errorHtml e) language

/-- An error with its description below. -/
def errorText (language : String) (e : ErrorEntry) : String :=
  entryWith ("- " ++ quoted (errorShown language e).1) (errorShown language e).2

end Document

/-- The entries of a section in the document of a declaration. Of a list that is too long to be
counted by an engine only a front is shown. -/
def Snapshot.entries (s : Snapshot) (style : Style) (c : Config) (i : UInt32) (d : Decl) :
    Rubric → List String
  | .signature => codeEntries style.codeLanguage d.signatureHtml
  | .params => (Slice.kept d.params).map paramEntry
  | .errors => ((Slice.kept d.errors).filter fun e => (errorShown style.codeLanguage e).1 ≠ "").map
      (errorText style.codeLanguage)
  | .doctest => codeEntries style.codeLanguage d.exampleHtml
  | .members _ set => (Index.wanted set (s.described c .full (s.children c i))).map Member.entry
  | .fields => ((Slice.kept d.fields).filter fun html => Markup.code html ≠ "").map fieldEntry
  | .source => if style.includeSource then codeEntries style.codeLanguage d.sourceHtml else []

/-- The document of a declaration. -/
def Snapshot.outline (s : Snapshot) (style : Style) (c : Config) (title : String) (i : UInt32)
    (d : Decl) : Document where
  title := title
  markdown := "# " ++ title ++ "\n\n" ++ ("*" ++ d.category.label ++ "* " ++ quoted d.name) ++
    (if Markup.prose d.docsHtml style.codeLanguage = "" then ""
      else "\n\n" ++ Markup.prose d.docsHtml style.codeLanguage) ++
    String.join (d.category.rubrics.map fun r =>
      sectionText r.heading (s.entries style c i d r)) ++ "\n"

/-! ## Entries do not end in white space -/

namespace Document

/-- Whether the entries have something in them and do not end in white space. -/
def Solid (entries : List String) : Prop :=
  ∀ e ∈ entries, e.toList ≠ [] ∧ Firm e.toList

theorem solid_codeEntries (language html : String) : Solid (codeEntries language html) := by
  rw [codeEntries]
  split_ifs
  · exact List.forall_mem_nil _
  · refine List.forall_mem_singleton.2 ?_
    rw [String.toList_ofList]
    exact ⟨by simp [Markup.fence], (Markup.framed_fence _ _).firm⟩

theorem solid_paramEntry (html : String) :
    (paramEntry html).toList ≠ [] ∧ Firm (paramEntry html).toList := by
  rw [paramEntry]
  split_ifs with unnamed
  · exact ⟨by decide, fun c hc => by simp at hc; subst hc; decide⟩
  · refine ⟨by simp, ?_⟩
    rw [String.toList_append]
    exact (firm_inline html).append (by simpa using unnamed) _

theorem solid_quoted (name : String) :
    ("- " ++ quoted name).toList ≠ [] ∧ Firm ("- " ++ quoted name).toList := by
  refine ⟨by simp, ?_⟩
  rw [String.toList_append]
  exact (firm_quoted name).append (by simp [quoted]) _

theorem firm_prose (html language : String) : Firm (Markup.prose html language).toList := by
  rw [Markup.prose, String.toList_ofList]
  exact firm_trim _

theorem solid_entryWith {entry body : String} (solid : entry.toList ≠ [] ∧ Firm entry.toList)
    (firm : Firm body.toList) :
    (entryWith entry body).toList ≠ [] ∧ Firm (entryWith entry body).toList := by
  rw [entryWith]
  split_ifs with bare
  · exact solid
  · obtain ⟨filled, firm'⟩ := firm_indent 2 firm (by simpa using bare)
    refine ⟨by simp, ?_⟩
    rw [String.toList_append, String.toList_ofList]
    exact firm'.append filled _

theorem firm_errorShown (language : String) (e : ErrorEntry) :
    Firm (errorShown language e).2.toList := by
  show Firm (String.ofList _).toList
  rw [String.toList_ofList]
  cases Markup.description.first? (Snapshot.errorHtml e).toList with
  | none => exact firm_of_forall (List.forall_mem_nil _)
  | some body => exact firm_trim _

/-! ## Entries of code and on single lines -/

theorem codeEntries_ne_nil_iff (language html : String) :
    codeEntries language html ≠ [] ↔ Markup.code html ≠ "" := by
  rw [codeEntries]
  split_ifs with none
  · simp [none]
  · simp [none]

theorem newline_notMem_oneLine (text : List Char) : '\n' ∉ oneLine text :=
  notMem_intercalate (by decide) fun _ hw mem => absurd ((words_spec hw).2 '\n' mem) (by decide)

theorem newline_notMem_paramEntry (html : String) : '\n' ∉ (paramEntry html).toList := by
  rw [paramEntry]
  split_ifs
  · decide
  · simp [Markup.inline, Markup.inlineText, newline_notMem_oneLine]

theorem newline_notMem_fieldEntry (html : String) : '\n' ∉ (fieldEntry html).toList := by
  simp [fieldEntry, quoted, newline_notMem_oneLine]

end Document

namespace Index

open Snapshot Table

variable {s : Snapshot} {i : UInt32} {d : Decl} (style : Style) (c : Config)

/-- What a listing tells of a declaration is a listed member. -/
theorem listed_described (sound : s.Sound) (hi : s.Declares i) :
    ∀ m ∈ s.described c .full (s.children c i), m.Listed :=
  ensures_listChildren ⟨i⟩ .full (Table.start s) _
    (answers_listChildren sound hi (Table.start s) (serves_start s)).1

theorem solid_entries (sound : s.Sound) (hi : s.Declares i) (r : Rubric) :
    Solid (s.entries style c i d r) := by
  cases r with
  | signature => exact solid_codeEntries _ _
  | params => exact List.forall_mem_map.2 fun html _ => solid_paramEntry html
  | errors =>
    exact List.forall_mem_map.2 fun e _ => solid_entryWith (solid_quoted _) (firm_errorShown _ e)
  | doctest => exact solid_codeEntries _ _
  | members heading set =>
    refine List.forall_mem_map.2 fun m hm => firm_entry ?_
    exact listed_described c sound hi m (List.mem_of_mem_filter hm)
  | fields => exact List.forall_mem_map.2 fun html _ => solid_quoted _
  | source =>
    rw [entries]
    split_ifs
    · exact solid_codeEntries _ _
    · exact List.forall_mem_nil _

end Index

end DocIndex
