import Mathlib.Data.List.Sort
import DocIndex.Proofs.Index.RootListing

/-!
# The listing of the main module under another alias

The query that finds the top level looks for the public alias in the paths of the index, and an
alias need not be a name of the main module there. An alias that stands in no path finds nothing,
and then the members of the root are listed; one that happens to stand in some paths hides all the
other members (`Snapshot.AtTop`). So two aliases give the same listing exactly if they bring the
same members to the top (`listRoot_withAlias`).
-/

namespace DocIndex

/-- The configuration with another name of the main module for users. -/
def Config.withAlias (c : Config) (name : String) : Config :=
  { c with publicAlias := name }

namespace Snapshot

/-- Whether a member of the main module is brought to the top: the query for the alias finds it, or
the query finds no member at all and private ones are not left out. -/
def AtTop (s : Snapshot) (c : Config) (r i : UInt32) : Prop :=
  s.isPublic i = true ∧ s.Mentions c.publicAlias i ∨
    (∀ j, s.parent? j = some r → s.isPublic j = true → ¬ s.Mentions c.publicAlias j) ∧
      (s.isPublic i = true ∨ c.includePrivate = true)

/-- Whether a declaration stands for one of the wanted categories. -/
def Admitted (s : Snapshot) (filter : CategorySet) (i : UInt32) : Prop :=
  ∃ t d, s.shown? i = some (t, d) ∧ filter.admits d.category = true

/-- The listing of the main module: what is brought to the top, in strictly ascending order of the
bytes of the names. -/
structure RootListing (s : Snapshot) (c : Config) (r : UInt32) (filter : CategorySet)
    (top : List Member) : Prop where
  mem_iff : ∀ i, ⟨i⟩ ∈ top.map (·.handle) ↔
    s.parent? i = some r ∧ s.AtTop c r i ∧ s.Admitted filter i
  order : top.Pairwise fun a b => Utf8.encode a.displayName < Utf8.encode b.displayName
  name : ∀ m ∈ top, m.displayName = s.nameOf m.handle.index

variable {s : Snapshot} {c : Config} {i r : UInt32} {filter : CategorySet} {l : List UInt32}

/-! ## What is brought to the top -/

/-- If the query finds no member the listing has those of the root. -/
theorem rootChildren_of_topLevel_eq_nil (tidy : s.Tidy) {d : Decl} (hd : s.decl? r = some d)
    (none : s.topLevel c [] (s.hitsOf c.publicAlias) = []) :
    s.rootChildren c (some r) = s.visibleMembers Category.isScope d c.includePrivate := by
  rw [rootChildren, none, List.isEmpty_nil, if_pos rfl, Option.bind_some, hd, Option.map_some,
    Option.getD_some, tidy.kept_members hd sublist_visibleMembers]

/-- Under an alias that stands in none of the paths every member is brought to the top. -/
theorem atTop_iff_of_unmentioned
    (unmentioned : ∀ j, s.parent? j = some r → ¬ s.Mentions c.publicAlias j)
    (child : s.parent? i = some r) :
    s.AtTop c r i ↔ s.isPublic i = true ∨ c.includePrivate = true := by
  rw [AtTop, or_iff_right fun hit => unmentioned i child hit.2]
  exact and_iff_right fun j child _ => unmentioned j child

namespace RootModule

variable (main : s.RootModule c r) (tidy : s.Tidy) (word : Text.IsWord c.publicAlias)

include main tidy word

theorem mem_rootChildren_iff :
    i ∈ s.rootChildren c (some r) ↔ s.parent? i = some r ∧ s.AtTop c r i := by
  obtain ⟨d, hd, -, scope⟩ := main.scope
  have found (j : UInt32) := main.mem_topLevel_iff (i := j) tidy word
  by_cases none : s.topLevel c [] (s.hitsOf c.publicAlias) = []
  · have unmentioned (j : UInt32) (child : s.parent? j = some r) (shown : s.isPublic j = true) :
        ¬ s.Mentions c.publicAlias j := by
      intro mentioned
      have listed := (found j).2 ⟨child, shown, mentioned⟩
      rw [none] at listed
      cases listed
    rw [rootChildren_of_topLevel_eq_nil tidy hd none, mem_visibleMembers_iff scope,
      tidy.mem_members_iff hd]
    refine and_congr_right fun child => ⟨fun shown => .inr ⟨unmentioned, shown⟩, ?_⟩
    rintro (⟨shown, -⟩ | ⟨-, shown⟩)
    · exact .inl shown
    · exact shown
  · obtain ⟨j, rest, some⟩ := List.exists_cons_of_ne_nil none
    have first := (found j).1 (some ▸ List.mem_cons_self)
    rw [rootChildren, if_neg (by rw [some]; exact Bool.false_ne_true), found]
    refine and_congr_right fun _ => ⟨.inl, ?_⟩
    rintro (hit | ⟨unmentioned, -⟩)
    · exact hit
    · exact absurd first.2.2 (unmentioned j first.1 first.2.1)

omit word in
theorem nodup_rootChildren : (s.rootChildren c (some r)).Nodup := by
  obtain ⟨d, hd, -, -⟩ := main.scope
  by_cases none : s.topLevel c [] (s.hitsOf c.publicAlias) = []
  · rw [rootChildren_of_topLevel_eq_nil tidy hd none]
    exact (tidy.nodup_members d (mem_of_decl? hd)).sublist sublist_visibleMembers
  · rw [rootChildren, if_neg (by simpa using none)]
    exact main.nodup_topLevel tidy

theorem nodup_nameOf_rootChildren : ((s.rootChildren c (some r)).map s.nameOf).Nodup := by
  have child (i : UInt32) (hi : i ∈ s.rootChildren c (some r)) : s.parent? i = some r :=
    ((main.mem_rootChildren_iff tidy word).1 hi).1
  refine (main.nodup_rootChildren tidy).map_on fun i hi j hj => ?_
  exact tidy.eq_of_nameOf (child i hi) (child j hj)

end RootModule

/-! ## What is listed -/

theorem mem_handle_described_iff :
    ⟨i⟩ ∈ (s.described c filter l).map (·.handle) ↔ i ∈ l ∧ s.Admitted filter i := by
  simp only [described, List.mem_map, List.mem_filter, List.mem_filterMap]
  constructor
  · rintro ⟨m, ⟨⟨j, hj, told⟩, wanted⟩, same⟩
    obtain ⟨⟨t, d⟩, shown, rfl⟩ := Option.map_eq_some_iff.1 told
    cases same
    exact ⟨hj, t, d, shown, wanted⟩
  · rintro ⟨hi, t, d, shown, wanted⟩
    exact ⟨_, ⟨⟨i, hi, by rw [describe?, shown, Option.map_some]⟩, wanted⟩, rfl⟩

theorem RootModule.rootListing (main : s.RootModule c r) (tidy : s.Tidy)
    (word : Text.IsWord c.publicAlias) (filter : CategorySet) :
    s.RootListing c r filter ((s.described c filter (s.rootChildren c (some r))).mergeSort
      fun a b => a.displayName ≤ b.displayName) := by
  have perm := List.mergeSort_perm (s.described c filter (s.rootChildren c (some r)))
    fun a b => a.displayName ≤ b.displayName
  have distinct := (main.nodup_nameOf_rootChildren tidy word).sublist
    (sublist_described (c := c) filter _)
  refine ⟨fun i => ?_, pairwise_mergeSort_members distinct, fun m hm => ?_⟩
  · rw [(perm.map _).mem_iff, mem_handle_described_iff, main.mem_rootChildren_iff tidy word,
      and_assoc]
  · obtain ⟨j, -, told⟩ := List.mem_filterMap.1 (List.mem_of_mem_filter (List.mem_mergeSort.1 hm))
    obtain ⟨handle, name⟩ := describe?_spec told
    rw [name, handle]

/-- Whether the name of one declaration stands before that of another in the order of the bytes. -/
def Precedes (s : Snapshot) (a b : Handle) : Prop :=
  Utf8.encode (s.nameOf a.index) < Utf8.encode (s.nameOf b.index)

instance : Std.Irrefl s.Precedes :=
  ⟨fun _ => List.lt_irrefl _⟩

instance : Std.Antisymm s.Precedes :=
  ⟨fun _ _ first second => absurd second (List.lt_asymm first)⟩

theorem RootListing.pairwise_precedes {top : List Member} (h : s.RootListing c r filter top) :
    (top.map (·.handle)).Pairwise s.Precedes := by
  refine List.pairwise_map.2 (h.order.imp_of_mem fun {a b} ha hb lt => ?_)
  rwa [h.name a ha, h.name b hb] at lt

/-- Two listings are the same if the same members are brought to their tops. -/
theorem RootListing.map_handle_eq_iff {c' : Config} {top top' : List Member}
    (h : s.RootListing c r filter top) (h' : s.RootListing c' r filter top') :
    top.map (·.handle) = top'.map (·.handle) ↔
      ∀ i, s.parent? i = some r → s.Admitted filter i → (s.AtTop c r i ↔ s.AtTop c' r i) := by
  constructor
  · intro same i child wanted
    have listed := h.mem_iff i
    rw [same, h'.mem_iff] at listed
    simpa [child, wanted] using listed.symm
  · intro agree
    refine h.pairwise_precedes.eq_of_mem_iff h'.pairwise_precedes fun ⟨i⟩ => ?_
    rw [h.mem_iff, h'.mem_iff]
    refine and_congr_right fun child => ?_
    rw [and_comm, and_comm (b := s.Admitted filter i)]
    exact and_congr_right (agree i child)

end Snapshot

namespace Index

open Snapshot

variable {s : Snapshot} {c : Config} {r : UInt32} {a b : String}

theorem exists_answers_listRoot (tidy : s.Tidy) (readable : s.Readable)
    (few : s.modules.length < 2 ^ 32) (main : s.RootModule c r) (word : Text.IsWord c.publicAlias)
    (short : Utf8.Short c.publicAlias) (filter : CategorySet) :
    ∃ top, Answers s (listRoot c filter) (.ok top) ∧ s.RootListing c r filter top := by
  have listed : Answers s (listRoot c filter) _ :=
    answers_listRoot ⟨tidy.toClosed, readable⟩ few short
  rw [main.internalRoot?_eq tidy] at listed
  exact ⟨_, listed, main.rootListing tidy word filter⟩

/-- Under each alias the listing of the main module has what the alias brings to the top, sorted by
name. The handles are the same in the same order exactly if both aliases bring the same members
there. -/
theorem listRoot_withAlias (tidy : s.Tidy) (readable : s.Readable)
    (few : s.modules.length < 2 ^ 32) (main : s.RootModule c r) (worda : Text.IsWord a)
    (wordb : Text.IsWord b) (shorta : Utf8.Short a) (shortb : Utf8.Short b)
    (filter : CategorySet) :
    ∃ top top', Answers s (listRoot (c.withAlias a) filter) (.ok top) ∧
      Answers s (listRoot (c.withAlias b) filter) (.ok top') ∧
      s.RootListing (c.withAlias a) r filter top ∧ s.RootListing (c.withAlias b) r filter top' ∧
      (top.map (·.handle) = top'.map (·.handle) ↔
        ∀ i, s.parent? i = some r → s.Admitted filter i →
          (s.AtTop (c.withAlias a) r i ↔ s.AtTop (c.withAlias b) r i)) := by
  have under (name : String) : s.RootModule (c.withAlias name) r :=
    ⟨main.internalRoot, main.scope⟩
  obtain ⟨top, answer, listing⟩ :=
    exists_answers_listRoot tidy readable few (under a) worda shorta filter
  obtain ⟨top', answer', listing'⟩ :=
    exists_answers_listRoot tidy readable few (under b) wordb shortb filter
  exact ⟨top, top', answer, answer', listing, listing', listing.map_handle_eq_iff listing'⟩

/-- A main module with a member whose name starts like an alias. -/
def libraries : Snapshot where
  modules := [⟨"root", 0⟩]
  decls := #[
    { name := "root", category := .nameSpace, members := [1, 2] },
    { name := "fs", parent := some 0, category := .function },
    { name := "libc", parent := some 0, category := .function }]

theorem tidy_libraries : libraries.Tidy := by
  decide

theorem readable_libraries : libraries.Readable := by
  decide

theorem rootModule_libraries : libraries.RootModule {} 0 := by
  decide

theorem parent?_libraries {i : UInt32} (child : libraries.parent? i = some 0) : i = 1 ∨ i = 2 := by
  have root : libraries.decl? 0 = some libraries.decls[0] := rfl
  simpa [libraries] using (tidy_libraries.mem_members_iff root).2 child

theorem atTop_libraries {name : String} {i : UInt32}
    (absent : ¬ libraries.Mentions name 1 ∧ ¬ libraries.Mentions name 2)
    (child : libraries.parent? i = some 0) :
    libraries.AtTop (({} : Config).withAlias name) 0 i := by
  refine (atTop_iff_of_unmentioned (fun j hj => ?_) child).2 (.inl ?_)
  · rcases parent?_libraries hj with rfl | rfl
    · exact absent.1
    · exact absent.2
  · rcases parent?_libraries child with rfl | rfl <;> rfl

theorem unmentioned_std_libraries :
    ¬ libraries.Mentions "std" 1 ∧ ¬ libraries.Mentions "std" 2 := by
  decide

theorem listRoot_withAlias_libraries : libraries.Tidy ∧ libraries.Readable ∧
    libraries.modules.length < 2 ^ 32 ∧ libraries.RootModule {} 0 ∧ Text.IsWord "zig" ∧
    Text.IsWord "std" ∧ Utf8.Short "zig" ∧ Utf8.Short "std" ∧
    ∃ top top', Answers libraries (listRoot (({} : Config).withAlias "zig") .full) (.ok top) ∧
      Answers libraries (listRoot (({} : Config).withAlias "std") .full) (.ok top') ∧
      top.map (·.handle) = top'.map (·.handle) := by
  have few : libraries.modules.length < 2 ^ 32 := by decide
  have words : Text.IsWord "zig" ∧ Text.IsWord "std" := by decide
  have short : Utf8.Short "zig" ∧ Utf8.Short "std" := by decide
  have absent : ¬ libraries.Mentions "zig" 1 ∧ ¬ libraries.Mentions "zig" 2 := by decide
  obtain ⟨top, top', answer, answer', -, -, same⟩ := listRoot_withAlias tidy_libraries
    readable_libraries few rootModule_libraries words.1 words.2 short.1 short.2 .full
  refine ⟨tidy_libraries, readable_libraries, few, rootModule_libraries, words.1, words.2, short.1,
    short.2, top, top', answer, answer', same.2 fun i child _ => ?_⟩
  exact iff_of_true (atTop_libraries absent child) (atTop_libraries unmentioned_std_libraries child)

/-- Under the alias that its name starts with, one member hides the other. -/
theorem listRoot_withAlias_hides : libraries.Tidy ∧ libraries.RootModule {} 0 ∧
    Dotted.Plain "std" ∧ Dotted.Plain "lib" ∧
    ∃ top top', Answers libraries (listRoot (({} : Config).withAlias "std") .full) (.ok top) ∧
      Answers libraries (listRoot (({} : Config).withAlias "lib") .full) (.ok top') ∧
      ⟨1⟩ ∈ top.map (·.handle) ∧ ⟨1⟩ ∉ top'.map (·.handle) := by
  have few : libraries.modules.length < 2 ^ 32 := by decide
  have plain : Dotted.Plain "std" ∧ Dotted.Plain "lib" := by decide
  have under (name : String) : libraries.RootModule (({} : Config).withAlias name) 0 :=
    ⟨rootModule_libraries.internalRoot, rootModule_libraries.scope⟩
  obtain ⟨top, answer, listing⟩ := exists_answers_listRoot tidy_libraries readable_libraries few
    (under "std") plain.1.isWord (by decide : Utf8.Short "std") .full
  obtain ⟨top', answer', listing'⟩ := exists_answers_listRoot tidy_libraries readable_libraries few
    (under "lib") plain.2.isWord (by decide : Utf8.Short "lib") .full
  refine ⟨tidy_libraries, rootModule_libraries, plain.1, plain.2, top, top', answer, answer', ?_,
    ?_⟩
  · refine (listing.mem_iff 1).2 ⟨rfl, atTop_libraries unmentioned_std_libraries rfl, 1, ?_⟩
    exact ⟨libraries.decls[1], by decide, CategorySet.admits_full _⟩
  · intro listed
    rcases ((listing'.mem_iff 1).1 listed).2.1 with ⟨-, hit⟩ | ⟨unmentioned, -⟩
    · exact absurd hit (by decide)
    · exact unmentioned 2 rfl rfl (by decide)

end Index

end DocIndex
