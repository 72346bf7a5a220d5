import DocIndex.Proofs.Index.RootListing

/-!
# Private members in listings

Listings leave out private members unless they are asked for. What is listed without them is what is
listed with them, without them again (`members_withPrivate`). With them every member that stands for
something is listed, but not always for the main module: the query that finds its top level knows no
private declarations, so they are listed there only if there is nothing else.
-/

namespace DocIndex

/-- The configuration with or without private members in its listings. -/
def Config.withPrivate (c : Config) (wanted : Bool) : Config :=
  { c with includePrivate := wanted }

namespace Snapshot

variable {s : Snapshot} {c : Config} {i j r t : UInt32} {d : Decl} {l : List UInt32}
  {found : Option Resolved}

theorem described_filter (l : List UInt32) : s.described c .full (l.filter s.isPublic) =
    (s.described c .full l).filter fun m => s.isPublic m.handle.index := by
  rw [described_full, described_full]
  induction l with
  | nil => rfl
  | cons i l ih =>
    cases described : s.describe? c i with
    | none =>
      rw [List.filterMap_cons_none described, ← ih]
      by_cases shown : s.isPublic i = true
      · rw [List.filter_cons_of_pos shown, List.filterMap_cons_none described]
      · rw [List.filter_cons_of_neg shown]
    | some m =>
      have own : s.isPublic m.handle.index = s.isPublic i := by rw [(describe?_spec described).1]
      rw [List.filterMap_cons_some described]
      by_cases shown : s.isPublic i = true
      · rw [List.filter_cons_of_pos shown, List.filterMap_cons_some described, ih,
          List.filter_cons_of_pos (by rwa [own])]
      · rw [List.filter_cons_of_neg shown, ih, List.filter_cons_of_neg (by rwa [own])]

/-! ## Children -/

theorem children_withPrivate (tidy : s.Tidy) (hs : s.shown? i = some (t, d))
    (scope : d.category.hasMembers = true) :
    s.children (c.withPrivate false) i = s.publicMembers d ∧
      s.children (c.withPrivate true) i = d.members := by
  obtain ⟨hidden, all⟩ := visibleMembers_eq (s := s) scope
  have hd := (shown?_eq_some_iff.1 hs).2
  constructor
  · rw [children_of_shown? hs, Config.withPrivate, hidden]
    exact tidy.kept_members hd List.filter_sublist
  · rw [children_of_shown? hs, Config.withPrivate, all]
    exact tidy.kept_members hd (.refl _)

theorem children_filter (tidy : s.Tidy) (c : Config) (i : UInt32) :
    s.children (c.withPrivate false) i = (s.children (c.withPrivate true) i).filter s.isPublic := by
  cases hs : s.shown? i with
  | none =>
    rw [children, children, hs]
    rfl
  | some shown =>
    obtain ⟨t, d⟩ := shown
    by_cases scope : d.category.hasMembers = true
    · obtain ⟨hidden, all⟩ := children_withPrivate (c := c) tidy hs scope
      rw [hidden, all, publicMembers]
    · rw [children_of_shown? hs, children_of_shown? hs, visibleMembers_of_not scope,
        visibleMembers_of_not scope]
      rfl

/-! ## The top level -/

theorem MainModule.withPrivate (main : s.MainModule c r) (b : Bool) :
    s.MainModule (c.withPrivate b) r :=
  ⟨⟨main.internalRoot, main.scope⟩, main.publicAlias⟩

theorem MainModule.rootChildren_withPrivate (main : s.MainModule c r) (tidy : s.Tidy)
    (hd : s.decl? r = some d) (scope : d.category.isScope = true) :
    s.rootChildren (c.withPrivate false) (some r) =
        (s.rootChildren (c.withPrivate true) (some r)).filter s.isPublic ∧
      ∀ i, i ∈ s.rootChildren (c.withPrivate true) (some r) ↔
        s.parent? i = some r ∧ (s.isPublic i = true ∨ s.publicMembers d = []) := by
  obtain ⟨hidden, all⟩ := visibleMembers_eq (s := s) scope
  by_cases none : s.publicMembers d = []
  · -- the members of the root are listed
    have root (b : Bool) : s.rootChildren (c.withPrivate b) (some r) =
        Slice.kept (s.visibleMembers Category.isScope d b) := by
      rw [(main.withPrivate b).rootChildren_eq tidy hd none, Option.bind_some, hd]
      rfl
    have sub : (s.publicMembers d).Sublist d.members := List.filter_sublist
    rw [root, root, hidden, all, tidy.kept_members hd sub, tidy.kept_members hd (.refl _)]
    exact ⟨rfl, fun i => by simp [tidy.mem_members_iff hd, none]⟩
  · -- what the query finds is listed, and that is public
    have word := main.isWord tidy
    have found (b : Bool) : s.rootChildren (c.withPrivate b) (some r) =
        s.topLevel c [] (s.hitsOf c.publicAlias) := by
      rw [(main.withPrivate b).rootChildren_eq_topLevel tidy hd none,
        (main.withPrivate b).topLevel_hitsOf tidy,
        main.topLevel_hitsOf tidy]
      rfl
    have perm := main.perm_topLevel tidy hd
    rw [found, found]
    constructor
    · refine (List.filter_eq_self.2 fun i hi => ?_).symm
      rw [perm.mem_iff] at hi
      exact (List.mem_filter.1 hi).2
    · intro i
      rw [perm.mem_iff, publicMembers, List.mem_filter, tidy.mem_members_iff hd, ← publicMembers,
        or_iff_left none]

/-! ## Requests for the main module -/

theorem MainModule.exists_resolution (main : s.MainModule c r) (tidy : s.Tidy) {input : String}
    (asks : c.namesRoot (bareName input) = true) :
    ∃ x, s.resolution c input = some x ∧ x.handle = ⟨r⟩ ∧ x.isRoot = true := by
  rw [resolution, if_pos asks, rootResolution, mainRoot?_eq tidy.moduleName_ne,
    main.module?_eq tidy]
  exact ⟨_, rfl, rfl, rfl⟩

theorem listing_withPrivate (main : s.MainModule c r) (tidy : s.Tidy) (found : Option Resolved) :
    s.listing (c.withPrivate false) .full (some r) found =
      (s.listing (c.withPrivate true) .full (some r) found).filter
        fun m => s.isPublic m.handle.index := by
  obtain ⟨d, hd, -, scope⟩ := main.scope
  cases found with
  | none => rfl
  | some x =>
    rw [listing, listing]
    split_ifs
    · have sorted := filter_mergeSort Member.nameLe_trans Member.nameLe_total
        (fun m : Member => s.isPublic m.handle.index)
        (s.described c .full (s.rootChildren (c.withPrivate true) (some r)))
      rw [← described_filter, ← (main.rootChildren_withPrivate tidy hd scope).1] at sorted
      exact sorted.symm
    · rw [children_filter tidy, ← described_filter]
      rfl

/-- Whether a listing has all members, of what a name is resolved to, that stand for something. -/
def ListsAll (s : Snapshot) (found : Option Resolved) (listed : List Member) : Prop :=
  ∀ x ∈ found, ∀ t d, s.shown? x.handle.index = some (t, d) → d.category.hasMembers = true →
    ∀ i ∈ d.members, s.follow i ≠ none → ∃ m ∈ listed, m.handle = ⟨i⟩

/-- Other listings than that of the main module have all members. -/
theorem listsAll_below (tidy : s.Tidy) (below : ∀ x ∈ found, x.isRoot = false) :
    s.ListsAll found (s.listing (c.withPrivate true) .full (some r) found) := by
  intro x hx t d hs scope i hi followed
  rw [hx, listing, if_neg (by simp [below x hx])]
  apply exists_mem_described_iff.2
  rw [(children_withPrivate tidy hs scope).2]
  exact ⟨hi, followed⟩

theorem publicMembers_eq_nil_iff (tidy : s.Tidy) (hd : s.decl? r = some d) :
    s.publicMembers d = [] ↔ ∀ i, s.parent? i = some r → s.isPublic i = false := by
  simp only [publicMembers, List.filter_eq_nil_iff, tidy.mem_members_iff hd,
    Bool.not_eq_true]

theorem exists_mem_listing_root_iff (main : s.MainModule c r) (tidy : s.Tidy) {x : Resolved}
    (root : x.isRoot = true) :
    (∃ m ∈ s.listing (c.withPrivate true) .full (some r) (some x), m.handle = ⟨i⟩) ↔
      (s.parent? i = some r ∧
        (s.isPublic i = true ∨ ∀ j, s.parent? j = some r → s.isPublic j = false)) ∧
      s.follow i ≠ none := by
  obtain ⟨d, hd, -, scope⟩ := main.scope
  rw [listing, if_pos root]
  simp only [List.mem_mergeSort]
  rw [exists_mem_described_iff, (main.rootChildren_withPrivate tidy hd scope).2,
    publicMembers_eq_nil_iff tidy hd]

/-- In the listing of the main module private members are missing if there are public ones. -/
theorem listsAll_root_iff (main : s.MainModule c r) (tidy : s.Tidy) {x : Resolved}
    (handle : x.handle = ⟨r⟩) (root : x.isRoot = true) :
    s.ListsAll (some x) (s.listing (c.withPrivate true) .full (some r) (some x)) ↔
      (∀ i, s.parent? i = some r → s.isPublic i = false) ∨
        ∀ i, s.parent? i = some r → s.isPublic i = false → s.follow i = none := by
  obtain ⟨d, hd, -, scope⟩ := main.scope
  have shown : s.shown? x.handle.index = some (r, d) := by
    rw [handle]
    exact main.shown?_eq hd
  constructor
  · intro all
    by_cases none : ∀ i, s.parent? i = some r → s.isPublic i = false
    · exact .inl none
    · refine .inr fun i hi hidden => ?_
      by_contra followed
      have listed := all x rfl r d shown (Category.hasMembers_of_isScope scope) i
        ((tidy.mem_members_iff hd).2 hi) followed
      obtain ⟨⟨-, shown | other⟩, -⟩ := (exists_mem_listing_root_iff main tidy root).1 listed
      · rw [hidden] at shown
        cases shown
      · exact none other
  · rintro all y hy t e hs - i hi followed
    cases hy
    rw [shown] at hs
    cases hs
    have child := (tidy.mem_members_iff hd).1 hi
    apply (exists_mem_listing_root_iff main tidy root).2
    refine ⟨⟨child, ?_⟩, followed⟩
    rcases all with none | broken
    · exact .inr none
    · left
      by_contra hidden
      exact followed (broken i child (Bool.eq_false_of_not_eq_true hidden))

end Snapshot

namespace Session

open Index Snapshot Table

variable {s : Snapshot} {c : Config} {r : UInt32} {input : String}

theorem resolution_withPrivate (b : Bool) :
    s.resolution (c.withPrivate b) input = s.resolution c input :=
  rfl

theorem answers_members_withPrivate (tidy : s.Tidy) (readable : s.Readable)
    (few : s.modules.length < 2 ^ 32) (main : s.MainModule c r) (fits : c.Fits input) (b : Bool) :
    Answers s (members (c.withPrivate b) input .full)
      (.ok (s.listing (c.withPrivate b) .full (some r) (s.resolution c input))) := by
  have fits' : (c.withPrivate b).Fits input := ⟨fits.name, fits.spelling⟩
  have listed := answers_members ⟨tidy.toClosed, readable⟩ few fits' .full
  rwa [resolution_withPrivate, (main.withPrivate b).internalRoot?_eq tidy] at listed

/-- Listings without private members are those with them, without the private members again. With
them every member that stands for something is listed, save that the main module lists its private
members only if there are no others. -/
theorem members_withPrivate (tidy : s.Tidy) (readable : s.Readable)
    (few : s.modules.length < 2 ^ 32) (main : s.MainModule c r) (fits : c.Fits input) :
    ∃ found hidden all, Answers s (resolve c input) (.ok found) ∧
      Answers s (members (c.withPrivate false) input .full) (.ok hidden) ∧
      Answers s (members (c.withPrivate true) input .full) (.ok all) ∧
      hidden = all.filter (fun m => s.isPublic m.handle.index) ∧
      (s.ListsAll found all ↔ c.namesRoot (bareName input) = false ∨
        (∀ i, s.parent? i = some r → s.isPublic i = false) ∨
          ∀ i, s.parent? i = some r → s.isPublic i = false → s.follow i = none) := by
  have listed := answers_members_withPrivate tidy readable few main fits
  have answer := answers_resolve_of_sound ⟨tidy.toClosed, readable⟩ few fits
  refine ⟨_, _, _, answer, listed false, listed true, listing_withPrivate main tidy _, ?_⟩
  by_cases asks : c.namesRoot (bareName input) = true
  · obtain ⟨x, hx, handle, root⟩ := main.exists_resolution tidy asks
    rw [hx, listsAll_root_iff main tidy handle root]
    simp [asks]
  · have below := Bool.eq_false_of_not_eq_true asks
    refine iff_of_true (listsAll_below tidy fun x hx => ?_) (.inl below)
    rw [(resolution_spec tidy.toRootsClosed hx).2, below]

/-- A main module with a member for everyone and a private one. -/
def guarded : Snapshot where
  modules := [⟨"root", 0⟩, ⟨"std", 0⟩]
  decls := #[
    { name := "root", category := .nameSpace, members := [1, 2] },
    { name := "open", parent := some 0, category := .function },
    { name := "secret", parent := some 0, category := .function, isPrivate := true }]

theorem tidy_guarded : guarded.Tidy := by
  decide +kernel

theorem readable_guarded : guarded.Readable := by
  decide +kernel

theorem mainModule_guarded : guarded.MainModule {} 0 := by
  decide +kernel

theorem members_withPrivate_guarded : guarded.Tidy ∧ guarded.Readable ∧
    guarded.modules.length < 2 ^ 32 ∧ guarded.MainModule {} 0 ∧ ({} : Config).Fits "" ∧
    ∃ found hidden all, Answers guarded (resolve {} "") (.ok found) ∧
      Answers guarded (members (({} : Config).withPrivate false) "" .full) (.ok hidden) ∧
      Answers guarded (members (({} : Config).withPrivate true) "" .full) (.ok all) ∧
      hidden = all.filter (fun m => guarded.isPublic m.handle.index) ∧
      ¬ guarded.ListsAll found all := by
  have few : guarded.modules.length < 2 ^ 32 := by decide
  have fits : ({} : Config).Fits "" := by decide +kernel
  obtain ⟨found, hidden, all, answer, without, listed, filtered, complete⟩ :=
    members_withPrivate tidy_guarded readable_guarded few mainModule_guarded fits
  refine ⟨tidy_guarded, readable_guarded, few, mainModule_guarded, fits, found, hidden, all, answer,
    without, listed, filtered, fun every => ?_⟩
  rcases complete.1 every with below | none | broken
  · exact absurd below (by decide)
  · exact absurd (none 1 (by decide)) (by decide)
  · exact absurd (broken 2 (by decide) (by decide)) (by decide +kernel)

/-- With private members asked for, the listing of the main module has not the private one. -/
theorem members_withPrivate_missing : guarded.Tidy ∧ guarded.MainModule {} 0 ∧
    guarded.parent? 2 = some 0 ∧ guarded.follow 2 = some 2 ∧
    ∃ all, Answers guarded (members (({} : Config).withPrivate true) "" .full) (.ok all) ∧
      ∀ m ∈ all, m.handle ≠ ⟨2⟩ := by
  have few : guarded.modules.length < 2 ^ 32 := by decide
  have fits : ({} : Config).Fits "" := by decide +kernel
  have asks : ({} : Config).namesRoot (bareName "") = true := by decide
  have listed := answers_members_withPrivate tidy_guarded readable_guarded few mainModule_guarded
    fits true
  obtain ⟨x, hx, -, root⟩ := mainModule_guarded.exists_resolution tidy_guarded asks
  rw [hx] at listed
  refine ⟨tidy_guarded, mainModule_guarded, by decide, by decide +kernel, _, listed,
    fun m hm same => ?_⟩
  obtain ⟨⟨-, shown | none⟩, -⟩ :=
    (exists_mem_listing_root_iff mainModule_guarded tidy_guarded root).1 ⟨m, hm, same⟩
  · exact absurd shown (by decide)
  · exact absurd (none 1 (by decide)) (by decide)

end Session

end DocIndex
