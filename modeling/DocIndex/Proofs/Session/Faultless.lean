import DocIndex.Proofs.Document.Outline
import DocIndex.Proofs.Resolve.Resolution
import DocIndex.Proofs.Session.Stepwise

/-!
# Sessions without faults

Nothing that is asked of a session over a sound snapshot ends in a fault (`answers_of_sound`),
whatever circles parents, members and aliases run in, as long as the texts that are looked up fit
the memory and the modules can be counted. A name that stands for nothing has no document and no
members, and neither has an alias that leads nowhere; below other declarations and among the hits of
a search it is skipped.
-/

namespace DocIndex

namespace Config

variable {c : Config} {input name : String}

theorem length_lt_of_below? {front rest : String} (h : Dotted.below? front name = some rest) :
    front.length < name.length := by
  rw [Dotted.below?_eq_some_iff.1 h, String.length_append, String.length_append]
  have dot : ".".length = 1 := rfl
  omega

/-- Where a name stands for the main module the public alias is among the texts that are looked up
for it, alone or in front of something. -/
theorem Fits.publicAlias (fits : c.Fits input) (main : c.namesRoot (bareName input) = true) :
    Utf8.Short c.publicAlias := by
  have front {path : String} (short : Utf8.Short (c.atAlias path)) : Utf8.Short c.publicAlias := by
    rw [atAlias, String.append_assoc] at short
    exact short.of_append
  cases below : Dotted.below? c.internalRoot (bareName input) with
  | some rest =>
    have longer := length_lt_of_below? below
    rcases namesRoot_iff.1 main with same | same | same
    · rw [same] at longer
      exact absurd longer (Nat.not_lt_zero _)
    · exact same ▸ fits.name
    · rw [same] at longer
      exact absurd longer (Nat.lt_irrefl _)
  | none =>
    cases byAlias : Dotted.below? c.publicAlias (bareName input) with
    | some path =>
      apply front
      rw [atAlias, ← Dotted.below?_eq_some_iff.1 byAlias]
      exact fits.name
    | none =>
      apply front (fits.spelling (.direct, c.atAlias (bareName input)) _)
      simp [candidates, directSpellings, anchor, below, byAlias]

/-- No spelling is tried for the main module. -/
theorem ne_root_of_mem_candidates {p : Strategy × String} (h : p ∈ c.candidates name) :
    p.1 ≠ .root := by
  rw [candidates, List.mem_append, List.mem_map] at h
  rcases h with ⟨spelling, -, rfl⟩ | h
  · exact nofun
  · cases hp : c.pathOf? name with
    | none =>
      rw [hp] at h
      cases h
    | some path =>
      simp only [hp, List.mem_append, List.mem_map] at h
      rcases h with ⟨spelling, -, rfl⟩ | ⟨spelling, -, rfl⟩ <;> exact nofun

end Config

theorem Snapshot.isRoot_pathResolution {s : Snapshot} {c : Config} {name : String} {r : Resolved}
    (h : s.pathResolution c name = some r) : r.isRoot = false := by
  obtain ⟨⟨i, strategy, spelling⟩, known, rfl⟩ := Option.map_eq_some_iff.1 h
  exact decide_eq_false (Config.ne_root_of_mem_candidates (firstKnown_spec known).1)

theorem Snapshot.isRoot_fileResolution {s : Snapshot} {c : Config} {name : String} {r : Resolved}
    (h : s.fileResolution c name = some r) : r.isRoot = false := by
  rw [fileResolution] at h
  split_ifs at h
  obtain ⟨i, -, rfl⟩ := Option.map_eq_some_iff.1 h
  rfl

/-- What a name is resolved to is a declaration, and it is shown as the main module exactly if the
name asks for that. -/
theorem Snapshot.resolution_spec {s : Snapshot} {c : Config} {input : String} {r : Resolved}
    (closed : s.RootsClosed) (h : s.resolution c input = some r) :
    s.Declares r.handle.index ∧ r.isRoot = c.namesRoot (bareName input) := by
  by_cases main : c.namesRoot (bareName input) = true
  · rw [resolution, if_pos main] at h
    obtain ⟨i, found, rfl⟩ := Option.map_eq_some_iff.1 h
    obtain ⟨m, hm, rfl⟩ := Option.map_eq_some_iff.1 found
    refine ⟨closed.moduleRoot m ?_, main.symm⟩
    rcases Option.or_eq_some_iff.1 hm with hm | ⟨-, hm⟩ <;> exact (namedModule?_spec hm).1
  · rw [resolution, if_neg main] at h
    rw [Bool.eq_false_of_not_eq_true main]
    rcases Option.or_eq_some_iff.1 h with file | ⟨-, path⟩
    · refine ⟨?_, isRoot_fileResolution file⟩
      rw [fileResolution] at file
      split_ifs at file
      obtain ⟨i, hi, rfl⟩ := Option.map_eq_some_iff.1 file
      exact closed.declares_of_fileRoot? hi
    · refine ⟨?_, isRoot_pathResolution path⟩
      obtain ⟨⟨i, strategy, spelling⟩, known, rfl⟩ := Option.map_eq_some_iff.1 path
      exact closed.declares_of_lookup (firstKnown_spec known).2

/-- What is listed for a name, if the module named like the internal root has the given root. -/
def Snapshot.listing (s : Snapshot) (c : Config) (filter : CategorySet) (root : Option UInt32) :
    Option Resolved → List Member
  | none => []
  | some r =>
    if r.isRoot then
      (s.described c filter (s.rootChildren c root)).mergeSort fun a b =>
        a.displayName ≤ b.displayName
    else s.described c filter (s.children c r.handle.index)

namespace Session

open Index Snapshot Table

variable {s : Snapshot} {c : Config} {style : Style} {input : String} {r : Resolved}

/-- An alias that leads nowhere has no document, and everything else has one. -/
theorem exists_answers_render (sound : s.Sound) (few : s.modules.length < 2 ^ 32)
    (hr : s.Declares r.handle.index) (short : r.isRoot = true → Utf8.Short c.publicAlias) :
    ∃ document, Answers s (render style c r) (.ok document) ∧
      (document = none ↔ r.isRoot = false ∧ s.follow r.handle.index = none) := by
  obtain ⟨d, hd⟩ := exists_decl?_iff.2 hr
  cases root : r.isRoot with
  | true =>
    have listed : Answers s (listRoot c .full) _ := answers_listRoot sound few (short root)
    exact ⟨_, answers_render_main c sound root hd listed style, by simp⟩
  | false =>
    cases hs : s.shown? r.handle.index with
    | none =>
      obtain ⟨way, unwound, shown⟩ := exists_answers_unwind sound.toClosed hr
      refine ⟨none, ?_, by simp [shown?_eq_none_iff.1 hs]⟩
      rw [render_eq style c root]
      refine unwound.bind ?_
      rw [shown, hs]
      exact answers_pure s none
    | some found =>
      obtain ⟨t, e⟩ := found
      exact ⟨_, answers_render sound root hs style c, by simp [(shown?_eq_some_iff.1 hs).1]⟩

section

variable (sound : s.Sound) (few : s.modules.length < 2 ^ 32) (fits : c.Fits input)

include sound few fits

theorem answers_resolve_of_sound :
    Answers s (Index.resolve c input) (.ok (s.resolution c input)) :=
  answers_resolve sound.toRootsClosed ⟨few, sound.moduleName, sound.fqn⟩ fits

theorem exists_answers_document :
    ∃ document, Answers s (Session.document c input) (.ok document) ∧
      (document = none ↔ ∀ r ∈ s.resolution c input,
        r.isRoot = false ∧ s.follow r.handle.index = none) := by
  have answer := answers_resolve_of_sound sound few fits
  cases found : s.resolution c input with
  | none =>
    rw [found] at answer
    exact ⟨none, answer.bind (answers_pure s none), by simp⟩
  | some r =>
    rw [found] at answer
    obtain ⟨declared, main⟩ := resolution_spec sound.toRootsClosed found
    have short (root : r.isRoot = true) : Utf8.Short c.publicAlias :=
      fits.publicAlias (main.symm.trans root)
    obtain ⟨document, written, spec⟩ := exists_answers_render sound few declared short
    exact ⟨document, answer.bind written, by simpa using spec⟩

theorem answers_members (filter : CategorySet) :
    Answers s (members c input filter)
      (.ok (s.listing c filter (s.internalRoot? c) (s.resolution c input))) := by
  refine (answers_resolve_of_sound sound few fits).bind ?_
  cases found : s.resolution c input with
  | none => exact answers_pure s []
  | some r =>
    obtain ⟨declared, main⟩ := resolution_spec sound.toRootsClosed found
    simp only [listing]
    split_ifs with isRoot
    · exact answers_listRoot sound few (fits.publicAlias (main.symm.trans isRoot))
    · exact answers_listChildren sound declared

end

theorem listing_eq_nil {found : Option Resolved}
    (lost : ∀ r ∈ found, r.isRoot = false ∧ s.follow r.handle.index = none)
    (filter : CategorySet) (root : Option UInt32) : s.listing c filter root found = [] := by
  cases found with
  | none => rfl
  | some r =>
    obtain ⟨below, lost⟩ := lost r rfl
    rw [listing, below, if_neg Bool.false_ne_true, children, shown?_eq_none_iff.2 lost]
    rfl

/-- Over a sound snapshot nothing that is asked of a session ends in a fault: each answer is told by
the snapshot. What a name stands for has no document only if it is an alias that leads nowhere, and
then it has no members; among the members of a declaration and the hits of a search just such
aliases are skipped. Modules are counted in 32 bits, so there have to be fewer. -/
theorem answers_of_sound (sound : s.Sound) (few : s.modules.length < 2 ^ 32) (c : Config) :
    (∀ input, c.Fits input → ∃ found document,
      found = s.resolution c input ∧ Answers s (Index.resolve c input) (.ok found) ∧
      Answers s (Session.document c input) (.ok document) ∧
      (document = none ↔ ∀ r ∈ found, r.isRoot = false ∧ s.follow r.handle.index = none) ∧
      ∀ filter, ∃ listed, listed = s.listing c filter (s.internalRoot? c) found ∧
        Answers s (members c input filter) (.ok listed) ∧ (document = none → listed = [])) ∧
    (∀ query, Utf8.Short (trimmed query) → Answers s (search c query) (.ok (s.found c query))) ∧
    Answers s modules (.ok ((s.modules.takeWhile (·.name ≠ "")).map (·.name))) ∧
    ∀ i, (s.describe? c i = none ↔ s.follow i = none) ∧ (s.hit? c i = none ↔ s.follow i = none) := by
  refine ⟨fun input fits => ?_, fun query => answers_search sound,
    answers_modules few sound.moduleName, fun i => ?_⟩
  · obtain ⟨document, written, lost⟩ := exists_answers_document sound few fits
    refine ⟨_, document, rfl, answers_resolve_of_sound sound few fits, written, lost,
      fun filter => ⟨_, rfl, answers_members sound few fits filter, fun absent => ?_⟩⟩
    exact listing_eq_nil (lost.1 absent) filter _
  · rw [describe?, hit?, Option.map_eq_none_iff, Option.map_eq_none_iff, shown?_eq_none_iff]
    exact ⟨Iff.rfl, Iff.rfl⟩

/-- A snapshot in which parents, members and aliases run in circles. -/
def tangled : Snapshot where
  modules := [⟨"root", 0⟩]
  decls := #[
    { name := "root", parent := some 1, category := .nameSpace, members := [1, 2, 0] },
    { name := "inner", parent := some 0, category := .nameSpace, members := [0, 1] },
    { name := "loop", parent := some 2, category := .redirect, aliasee := some 2 }]

theorem answers_of_sound_tangled : tangled.Sound ∧ tangled.modules.length < 2 ^ 32 ∧
    ({} : Config).Fits "loop" ∧ Utf8.Short (trimmed "loop") ∧
    (∃ document, Answers tangled (Session.document {} "loop") (.ok document)) ∧
    Answers tangled modules (.ok ["root"]) ∧
    Answers tangled (search {} "loop") (.ok (tangled.found {} "loop")) := by
  have sound : tangled.Sound := ⟨by decide +kernel, by decide +kernel⟩
  have fits : ({} : Config).Fits "loop" := by decide +kernel
  have short : Utf8.Short (trimmed "loop") := by decide +kernel
  have few : tangled.modules.length < 2 ^ 32 := by decide
  obtain ⟨named, searched, listed, -⟩ := answers_of_sound sound few {}
  obtain ⟨_, document, -, -, written, -⟩ := named "loop" fits
  exact ⟨sound, few, fits, short, ⟨document, written⟩, listed, searched "loop" short⟩

end Session

end DocIndex
