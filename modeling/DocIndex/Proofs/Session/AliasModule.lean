import DocIndex.Proofs.Session.Faultless

/-!
# A main module that only the alias names

A request for the main module is resolved to the module named like the internal root, or else to the
one named like the public alias. Listings know the first of these only: they keep the declarations
one level below the internal root, and fall back to the members of the module of that name. So where
the request is resolved through the alias nothing is listed for it, whatever members the root has
(`members_of_aliasModule`), though a listing of the same declaration has all of them.
-/

namespace DocIndex

namespace Snapshot

/-- Whether a list has the public members of a declaration that stand for something. -/
def ListsPublic (s : Snapshot) (r : UInt32) (listed : List Member) : Prop :=
  ∀ i, s.parent? i = some r → s.isPublic i = true → s.follow i ≠ none →
    ∃ m ∈ listed, m.handle = ⟨i⟩

variable {s : Snapshot} {c : Config} {i r : UInt32} {d : Decl} {l : List UInt32}

theorem listsPublic_nil_iff : s.ListsPublic r [] ↔
    ∀ i, s.parent? i = some r → s.isPublic i = true → s.follow i = none := by
  simp [ListsPublic]

theorem listsPublic_children (tidy : s.Tidy) (hd : s.decl? r = some d)
    (scope : d.category.hasMembers = true) :
    s.ListsPublic r (s.described c .full (s.children c r)) := by
  have concrete : d.category ≠ .redirect := by
    intro redirects
    rw [redirects] at scope
    cases scope
  have shown : s.shown? r = some (r, d) := shown?_eq_some_iff.2 ⟨follow_eq_self hd concrete, hd⟩
  intro i child shownTo followed
  apply exists_mem_described_iff.2
  rw [children_of_shown? shown, tidy.kept_members hd sublist_visibleMembers,
    mem_visibleMembers_iff scope, tidy.mem_members_iff hd]
  exact ⟨⟨child, .inl shownTo⟩, followed⟩

/-! ## Where no module is named like the internal root -/

section Absent

variable (tidy : s.Tidy) (absent : ∀ m ∈ s.modules, m.name ≠ c.internalRoot)

include tidy absent

/-- No path starts with the internal root. -/
theorem topLevelName?_eq_none (hi : s.Declares i) : Index.topLevelName? c (s.fqn i) = none := by
  obtain ⟨k, rest, hk, outermost, names, -⟩ := tidy.exists_walk hi
  obtain ⟨m, hm, -⟩ := tidy.module?_nameOf hk outermost
  have other : s.nameOf k ≠ c.internalRoot := by
    rw [← (module?_spec hm).2]
    exact absent m (module?_spec hm).1
  rw [Index.topLevelName?, tidy.segments_fqn hi, names]
  cases rest with
  | nil => rfl
  | cons name rest =>
    cases rest with
    | nil => exact if_neg other
    | cons _ _ => rfl

theorem topLevel_eq_nil {seen : List String} (declared : ∀ i ∈ l, s.Declares i) :
    s.topLevel c seen l = [] := by
  induction l with
  | nil => rfl
  | cons i l ih =>
    rw [List.forall_mem_cons] at declared
    rw [topLevel, topLevelName?_eq_none tidy absent declared.1]
    exact ih declared.2

theorem rootChildren_none : s.rootChildren c none = [] := by
  have hits := declares_of_mem_hitsOf tidy.size_lt c.publicAlias
  rw [rootChildren, topLevel_eq_nil tidy absent hits]
  rfl

omit tidy in
theorem module?_internalRoot : s.module? c.internalRoot = none := by
  rw [Option.eq_none_iff_forall_ne_some]
  intro m hm
  exact absent m (module?_spec hm).1 (module?_spec hm).2

theorem internalRoot?_eq_none : s.internalRoot? c = none := by
  rw [internalRoot?, namedModule?_eq tidy.moduleName_ne, module?_internalRoot absent]
  rfl

theorem rootResolution_of_absent (own : ⟨c.publicAlias, r⟩ ∈ s.modules) : s.rootResolution c = some
    { handle := ⟨r⟩, strategy := .root, spelling := c.internalRoot, title := c.publicAlias } := by
  rw [rootResolution, mainRoot?_eq tidy.moduleName_ne, module?_internalRoot absent,
    tidy.module?_eq own]
  rfl

end Absent

end Snapshot

namespace Session

open Index Snapshot Table Document

variable {s : Snapshot} {c : Config} {r : UInt32} {d : Decl} {input : String}

/-- The document of a main module that has no members. -/
def bareDocument (c : Config) (docsHtml : String) : Document :=
  .ofParts c.publicAlias
    [kindPart .nameSpace c.publicAlias, .block (Markup.prose docsHtml c.codeLanguage)]

/-- Sections without entries leave no trace. -/
theorem ofParts_memberParts_nil (c : Config) (docsHtml : String) :
    ofParts c.publicAlias (kindPart .nameSpace c.publicAlias ::
      .block (Markup.prose docsHtml c.codeLanguage) :: memberParts []) =
        bareDocument c docsHtml := by
  have blank : (memberParts []).map Part.text = ["", "", "", ""] := rfl
  simp only [bareDocument, ofParts, List.map_cons, List.map_nil, blank, String.join_cons,
    String.join_nil, String.append_empty]

variable (tidy : s.Tidy) (readable : s.Readable) (few : s.modules.length < 2 ^ 32)
  (absent : ∀ m ∈ s.modules, m.name ≠ c.internalRoot)

include tidy readable few absent

theorem answers_listRoot_of_absent (short : Utf8.Short c.publicAlias) (filter : CategorySet) :
    Answers s (listRoot c filter) (.ok []) := by
  have nothing : s.described c filter (s.rootChildren c none) = [] := by
    rw [rootChildren_none tidy absent]
    rfl
  have listed : Answers s (listRoot c filter) _ :=
    answers_listRoot ⟨tidy.toClosed, readable⟩ few short
  rwa [internalRoot?_eq_none tidy absent, nothing, List.mergeSort_nil] at listed

theorem answers_render_of_absent (short : Utf8.Short c.publicAlias) (hd : s.decl? r = some d)
    {found : Resolved} (handle : found.handle = ⟨r⟩) (root : found.isRoot = true)
    (title : found.title = c.publicAlias) :
    Answers s (render c.style c found) (.ok (some (bareDocument c d.docsHtml))) := by
  have sound : s.Sound := ⟨tidy.toClosed, readable⟩
  have declared : s.decl? found.handle.index = some d := by rwa [handle]
  have listed := answers_listRoot_of_absent tidy readable few absent short .full
  have written := answers_render_main c sound root declared listed c.style
  rwa [title, Config.style, ofParts_memberParts_nil] at written

/-- Where no module is named like the internal root but one like the public alias, a request for the
main module is resolved to the root of that one. Nothing is listed for it, of any category, and its
document has no sections of members, though the listing of the root itself has all public members
that stand for something. So the request lists them exactly if there are none. -/
theorem members_of_aliasModule (own : ⟨c.publicAlias, r⟩ ∈ s.modules) (hd : s.decl? r = some d)
    (scope : d.category.hasMembers = true) (fits : c.Fits input)
    (asks : c.namesRoot (bareName input) = true) :
    Answers s (resolve c input) (.ok (some
      { handle := ⟨r⟩, strategy := .root, spelling := c.internalRoot, title := c.publicAlias })) ∧
    (∀ filter, Answers s (members c input filter) (.ok [])) ∧
    Answers s (document c input) (.ok (some (bareDocument c d.docsHtml))) ∧
    (∃ below, Answers s (listChildren c ⟨r⟩ .full) (.ok below) ∧ s.ListsPublic r below) ∧
    (s.ListsPublic r [] ↔
      ∀ i, s.parent? i = some r → s.isPublic i = true → s.follow i = none) := by
  have sound : s.Sound := ⟨tidy.toClosed, readable⟩
  have short : Utf8.Short c.publicAlias := fits.publicAlias asks
  have answer := answers_resolve_of_sound sound few fits
  rw [resolution, if_pos asks, rootResolution_of_absent tidy absent own] at answer
  refine ⟨answer, fun filter => ?_, ?_, ?_, listsPublic_nil_iff⟩
  · exact answer.bind (answers_listRoot_of_absent tidy readable few absent short filter)
  · exact answer.bind (answers_render_of_absent tidy readable few absent short hd rfl rfl rfl)
  · exact ⟨_, answers_listChildren sound (declares_of_decl? hd), listsPublic_children tidy hd scope⟩

omit tidy readable few absent

/-- A main module that has the name of the public alias only. -/
def aliasOnly : Snapshot where
  modules := [⟨"std", 0⟩]
  decls := #[
    { name := "std", category := .nameSpace, members := [1] },
    { name := "fs", parent := some 0, category := .function }]

theorem tidy_aliasOnly : aliasOnly.Tidy := by
  decide

theorem readable_aliasOnly : aliasOnly.Readable := by
  decide

theorem members_of_aliasModule_aliasOnly : aliasOnly.Tidy ∧ aliasOnly.Readable ∧
    aliasOnly.modules.length < 2 ^ 32 ∧ (∀ m ∈ aliasOnly.modules, m.name ≠ "root") ∧
    ⟨"std", 0⟩ ∈ aliasOnly.modules ∧ (∃ d, aliasOnly.decl? 0 = some d ∧
      d.category.hasMembers = true) ∧ ({} : Config).Fits "" ∧
    ({} : Config).namesRoot (bareName "") = true ∧
    Answers aliasOnly (members {} "" .full) (.ok []) ∧ ¬ aliasOnly.ListsPublic 0 [] := by
  have few : aliasOnly.modules.length < 2 ^ 32 := by decide
  have absent : ∀ m ∈ aliasOnly.modules, m.name ≠ ({} : Config).internalRoot := by decide
  have own : ⟨"std", 0⟩ ∈ aliasOnly.modules := by decide
  have root : aliasOnly.decl? 0 = some aliasOnly.decls[0] := rfl
  have fits : ({} : Config).Fits "" := by decide
  have asks : ({} : Config).namesRoot (bareName "") = true := by decide
  obtain ⟨-, listed, -, -, complete⟩ := members_of_aliasModule tidy_aliasOnly readable_aliasOnly few
    absent own root rfl fits asks
  refine ⟨tidy_aliasOnly, readable_aliasOnly, few, absent, own, ⟨_, root, rfl⟩, fits, asks,
    listed .full, fun every => ?_⟩
  exact absurd (complete.1 every 1 rfl rfl) (by decide)

/-- The public member of the module is missing from the listing. -/
theorem members_of_aliasModule_missing : aliasOnly.Tidy ∧
    (∀ m ∈ aliasOnly.modules, m.name ≠ "root") ∧ ⟨"std", 0⟩ ∈ aliasOnly.modules ∧
    aliasOnly.parent? 1 = some 0 ∧ aliasOnly.isPublic 1 = true ∧ aliasOnly.follow 1 = some 1 ∧
    Answers aliasOnly (members {} "" .full) (.ok []) := by
  have few : aliasOnly.modules.length < 2 ^ 32 := by decide
  have absent : ∀ m ∈ aliasOnly.modules, m.name ≠ ({} : Config).internalRoot := by decide
  have own : ⟨({} : Config).publicAlias, 0⟩ ∈ aliasOnly.modules := by decide
  have fits : ({} : Config).Fits "" := by decide
  have asks : ({} : Config).namesRoot (bareName "") = true := by decide
  have short : Utf8.Short ({} : Config).publicAlias := fits.publicAlias asks
  have sound : aliasOnly.Sound := ⟨tidy_aliasOnly.toClosed, readable_aliasOnly⟩
  have answer := answers_resolve_of_sound sound few fits
  rw [resolution, if_pos asks, rootResolution_of_absent tidy_aliasOnly absent own] at answer
  refine ⟨tidy_aliasOnly, absent, own, rfl, rfl, by decide, answer.bind ?_⟩
  exact answers_listRoot_of_absent tidy_aliasOnly readable_aliasOnly few absent short .full

end Session

end DocIndex
