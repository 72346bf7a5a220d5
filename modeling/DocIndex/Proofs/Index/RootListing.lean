import DocIndex.Proofs.Index.Members
import DocIndex.Proofs.Session.Faultless
import DocIndex.Proofs.Session.Filtered
import DocIndex.Proofs.Snapshot.Names
import DocIndex.Proofs.Text.Order

/-!
# The listing of the main module

What users reach below the public alias is found by a query for the alias. Only members of the root
of the main module (`Snapshot.RootModule`) have paths of two names that start with the internal root
(`topLevelName?_fqn`), so the query finds those of them that are public and have the alias in their
paths (`mem_topLevel_iff`). Where the alias is a second name of the module (`Snapshot.MainModule`)
these are all public members (`mentions_of_parent`), and the listing of the main module is that of
its root, in the order of the names (`listRoot_perm_listChildren`).
-/

namespace DocIndex

namespace Snapshot

/-- The root of the module named like the internal root: a scope with that name as its own. -/
structure RootModule (s : Snapshot) (c : Config) (root : UInt32) : Prop where
  internalRoot : ⟨c.internalRoot, root⟩ ∈ s.modules
  scope : ∃ d, s.decl? root = some d ∧ d.name = c.internalRoot ∧ d.category.isScope = true

instance (s : Snapshot) (c : Config) (root : UInt32) : Decidable (s.RootModule c root) :=
  decidable_of_iff (⟨c.internalRoot, root⟩ ∈ s.modules ∧
      ∃ d, s.decl? root = some d ∧ d.name = c.internalRoot ∧ d.category.isScope = true)
    ⟨fun ⟨a, h⟩ => ⟨a, h⟩, fun ⟨a, h⟩ => ⟨a, h⟩⟩

/-- The root of the main module: a scope that both names of the configuration lead to, with the
internal one as its own. -/
structure MainModule (s : Snapshot) (c : Config) (root : UInt32) : Prop
    extends s.RootModule c root where
  publicAlias : ⟨c.publicAlias, root⟩ ∈ s.modules

instance (s : Snapshot) (c : Config) (root : UInt32) : Decidable (s.MainModule c root) :=
  decidable_of_iff (s.RootModule c root ∧ ⟨c.publicAlias, root⟩ ∈ s.modules)
    ⟨fun ⟨a, b⟩ => ⟨a, b⟩, fun ⟨a, b⟩ => ⟨a, b⟩⟩

variable {s : Snapshot} {c : Config} {i p r : UInt32} {d : Decl}

theorem mainModule_sample : sample.MainModule {} 0 := by
  decide +kernel

/-! ## Top-level names -/

namespace RootModule

variable (main : s.RootModule c r) (tidy : s.Tidy)

include main in
theorem nameOf_eq : s.nameOf r = c.internalRoot := by
  obtain ⟨d, hd, hname, -⟩ := main.scope
  rw [Snapshot.nameOf_eq hd, hname]

include main in
theorem declares : s.Declares r := by
  obtain ⟨d, hd, -⟩ := main.scope
  exact declares_of_decl? hd

include main in
theorem shown?_eq (hd : s.decl? r = some d) : s.shown? r = some (r, d) := by
  obtain ⟨e, he, -, scope⟩ := main.scope
  rw [hd] at he
  cases he
  have concrete : d.category ≠ .redirect := by
    intro redirects
    rw [redirects] at scope
    cases scope
  exact shown?_eq_some_iff.2 ⟨follow_eq_self hd concrete, hd⟩

include main tidy

theorem module?_eq : s.module? c.internalRoot = some ⟨c.internalRoot, r⟩ :=
  tidy.module?_eq main.internalRoot

theorem internalRoot?_eq : s.internalRoot? c = some r := by
  rw [internalRoot?, namedModule?_eq tidy.moduleName_ne, main.module?_eq tidy]
  rfl

theorem root_eq {m : ModuleEntry} (hm : m ∈ s.modules) (same : m.name = c.internalRoot) :
    m.root = r := by
  have own := main.module?_eq tidy
  rw [← same, tidy.module?_eq hm] at own
  rw [Option.some.inj own]

theorem parent?_eq : s.parent? r = none :=
  tidy.parent?_root main.internalRoot

/-- Of the declarations without parent only the root of the main module is named like it. -/
theorem nameOf_eq_iff (hp : s.Declares p) (outermost : s.parent? p = none) :
    s.nameOf p = c.internalRoot ↔ p = r := by
  constructor
  · intro same
    obtain ⟨m, hm, rfl⟩ := tidy.module?_nameOf hp outermost
    exact main.root_eq tidy (module?_spec hm).1 ((module?_spec hm).2.trans same)
  · rintro rfl
    exact main.nameOf_eq

/-- The declarations one level below the internal root are the members of the main module. -/
theorem topLevelName?_fqn (hi : s.Declares i) :
    Index.topLevelName? c (s.fqn i) = if s.parent? i = some r then some (s.nameOf i) else none := by
  rw [Index.topLevelName?, tidy.segments_fqn hi]
  cases hp : s.parent? i with
  | none =>
    have ho : s.outer? i = none := by rw [tidy.outer?_eq, hp]
    rw [names_of_outer?_eq_none hi ho]
    rfl
  | some p =>
    have ho : s.outer? i = some p := by rw [tidy.outer?_eq, hp]
    have declared := declares_of_outer? ho
    rw [names_of_outer? (tidy.acc i) ho]
    cases hq : s.parent? p with
    | none =>
      have outermost : s.outer? p = none := by rw [tidy.outer?_eq, hq]
      rw [names_of_outer?_eq_none declared outermost]
      simp only [List.singleton_append, main.nameOf_eq_iff tidy declared hq, Option.some_inj]
    | some q =>
      have ho' : s.outer? p = some q := by rw [tidy.outer?_eq, hq]
      have other : p ≠ r := by
        rintro rfl
        rw [main.parent?_eq tidy] at hq
        cases hq
      have ne := names_ne_nil (declares_of_outer? ho')
      obtain ⟨first, rest, names⟩ := List.exists_cons_of_ne_nil ne
      rw [names_of_outer? (tidy.acc p) ho', names, if_neg (by simpa using other)]
      cases rest <;> simp

/-- The top level that is looked for in a list are the members of the main module. -/
theorem topLevel_eq {seen : List String} {l : List UInt32} (declared : ∀ i ∈ l, s.Declares i)
    (distinct : l.Nodup) (fresh : ∀ i ∈ l, s.parent? i = some r → s.nameOf i ∉ seen) :
    s.topLevel c seen l = l.filter fun i => s.parent? i = some r := by
  induction l generalizing seen with
  | nil => rfl
  | cons i l ih =>
    rw [List.forall_mem_cons] at declared fresh
    rw [List.nodup_cons] at distinct
    rw [topLevel, main.topLevelName?_fqn tidy declared.1]
    by_cases child : s.parent? i = some r
    · rw [if_pos child, List.filter_cons_of_pos (by simpa using child)]
      dsimp only
      rw [if_neg (fresh.1 child), ih declared.2 distinct.2 fun j hj hp => ?_]
      rw [List.mem_cons, not_or]
      refine ⟨fun same => distinct.1 ?_, fresh.2 j hj hp⟩
      rwa [← tidy.eq_of_nameOf hp child same]
    · rw [if_neg child, List.filter_cons_of_neg (by simpa using child)]
      exact ih declared.2 distinct.2 fresh.2

/-! ## What the query finds -/

theorem topLevel_hitsOf :
    s.topLevel c [] (s.hitsOf c.publicAlias) =
      (s.query c.publicAlias (ignoresCase c.publicAlias)).filter fun i => s.parent? i = some r := by
  have distinct : (s.query c.publicAlias (ignoresCase c.publicAlias)).Nodup :=
    nodup_query tidy.size_lt
  rw [hitsOf, kept_of_nodup tidy.size_lt distinct fun i => declares_of_mem_query tidy.size_lt]
  exact main.topLevel_eq tidy (fun i => declares_of_mem_query tidy.size_lt) distinct
    fun _ _ _ => List.not_mem_nil

theorem nodup_topLevel :
    (s.topLevel c [] (s.hitsOf c.publicAlias)).Nodup := by
  rw [main.topLevel_hitsOf tidy]
  exact (nodup_query tidy.size_lt).filter _

/-- The query for the alias finds the public members of the main module that have the alias in their
paths. -/
theorem mem_topLevel_iff (word : Text.IsWord c.publicAlias) :
    i ∈ s.topLevel c [] (s.hitsOf c.publicAlias) ↔
      s.parent? i = some r ∧ s.isPublic i = true ∧ s.Mentions c.publicAlias i := by
  rw [main.topLevel_hitsOf tidy, List.mem_filter,
    (perm_query tidy.size_lt (terms_ne_nil word _)).mem_iff, List.mem_filter, mem_positions,
    matching_iff_mentions word, decide_eq_true_eq]
  constructor
  · rintro ⟨⟨-, found⟩, child⟩
    exact ⟨child, found⟩
  · rintro ⟨child, found⟩
    exact ⟨⟨declares_of_parent? child, found⟩, child⟩

end RootModule

namespace MainModule

variable (main : s.MainModule c r)

include main

theorem isWord (tidy : s.Tidy) : Text.IsWord c.publicAlias :=
  (tidy.moduleName ⟨c.publicAlias, r⟩ main.publicAlias).isWord

/-- The paths of the members of the main module start with the alias. -/
theorem mentions_of_parent (tidy : s.Tidy) (hi : s.parent? i = some r) :
    s.Mentions c.publicAlias i := by
  have ho : s.outer? i = some r := by rw [tidy.outer?_eq, hi]
  have outermost : s.outer? r = none := by rw [tidy.outer?_eq, main.parent?_eq tidy]
  have names : s.names i = s.nameOf r :: [s.nameOf i] := by
    rw [names_of_outer? (tidy.acc i) ho, names_of_outer?_eq_none main.declares outermost,
      List.singleton_append]
  have spelt : Dotted.join [c.publicAlias, s.nameOf i] ∈ s.spellings i :=
    (tidy.mem_spellings_iff (declares_of_parent? hi) main.declares (main.parent?_eq tidy) names).2
      ⟨_, main.publicAlias, rfl, rfl⟩
  refine ⟨_, spelt, ?_⟩
  rw [Dotted.join_cons _ (List.cons_ne_nil _ _), Dotted.join_singleton, Dotted.toList_dotted]
  exact (prefix_comparable c.publicAlias _).isInfix

theorem perm_topLevel (tidy : s.Tidy) (hd : s.decl? r = some d) :
    (s.topLevel c [] (s.hitsOf c.publicAlias)).Perm (s.publicMembers d) := by
  have word := main.isWord tidy
  have members := tidy.nodup_members d (mem_of_decl? hd)
  have found := main.nodup_topLevel tidy
  rw [publicMembers, List.perm_ext_iff_of_nodup found (members.filter _)]
  intro i
  rw [main.mem_topLevel_iff tidy word, List.mem_filter, tidy.mem_members_iff hd]
  exact and_congr_right fun child => and_iff_left (main.mentions_of_parent tidy child)

end MainModule

/-! ## What is listed -/

/-- The top level is what the query finds, if that is anything. -/
theorem MainModule.rootChildren_eq_topLevel (main : s.MainModule c r) (tidy : s.Tidy)
    (hd : s.decl? r = some d) (some : s.publicMembers d ≠ []) (root : Option UInt32) :
    s.rootChildren c root = s.topLevel c [] (s.hitsOf c.publicAlias) := by
  have found := main.perm_topLevel tidy hd
  have shown : (s.topLevel c [] (s.hitsOf c.publicAlias)).isEmpty = false := by
    rw [List.isEmpty_eq_false_iff]
    intro none
    rw [none] at found
    exact some found.nil_eq.symm
  rw [rootChildren, shown, if_neg Bool.false_ne_true]

theorem MainModule.rootChildren_eq (main : s.MainModule c r) (tidy : s.Tidy)
    (hd : s.decl? r = some d) (none : s.publicMembers d = []) (root : Option UInt32) :
    s.rootChildren c root = ((root.bind s.decl?).map fun d =>
      Slice.kept (s.visibleMembers Category.isScope d c.includePrivate)).getD [] := by
  have found := main.perm_topLevel tidy hd
  rw [none] at found
  rw [rootChildren, found.eq_nil, List.isEmpty_nil, if_pos rfl]

/-- The root of the main module lists what is not private below it. -/
theorem MainModule.children_eq (main : s.MainModule c r) (tidy : s.Tidy)
    (hd : s.decl? r = some d) (scope : d.category.isScope = true)
    (shown : c.includePrivate = false) : s.children c r = s.publicMembers d := by
  rw [children_of_shown? (main.shown?_eq hd), shown,
    (visibleMembers_eq (Category.hasMembers_of_isScope scope)).1]
  exact tidy.kept_members hd List.filter_sublist

theorem MainModule.perm_children (main : s.MainModule c r) (tidy : s.Tidy)
    (shown : c.includePrivate = false) : (s.rootChildren c (some r)).Perm (s.children c r) := by
  obtain ⟨d, hd, -, scope⟩ := main.scope
  rw [main.children_eq tidy hd scope shown]
  by_cases none : s.publicMembers d = []
  · rw [main.rootChildren_eq tidy hd none, none, Option.bind_some, hd, Option.map_some,
      Option.getD_some, shown, (visibleMembers_eq scope).1, none]
    exact .refl _
  · rw [main.rootChildren_eq_topLevel tidy hd none]
    exact main.perm_topLevel tidy hd

/-! ## The order of a listing -/

theorem MainModule.nodup_children (main : s.MainModule c r) (tidy : s.Tidy)
    (shown : c.includePrivate = false) : ((s.children c r).map s.nameOf).Nodup := by
  obtain ⟨d, hd, -, scope⟩ := main.scope
  rw [main.children_eq tidy hd scope shown]
  have parent : ∀ i ∈ s.publicMembers d, s.parent? i = some r :=
    fun i hi => (tidy.mem_members_iff hd).1 (List.mem_of_mem_filter hi)
  have distinct := (tidy.nodup_members d (mem_of_decl? hd)).filter s.isPublic
  exact distinct.map_on fun i hi j hj => tidy.eq_of_nameOf (parent i hi) (parent j hj)

end Snapshot

/-- Members with distinct names are sorted into the strict order of the bytes of their names. -/
theorem pairwise_mergeSort_members {members : List Member}
    (distinct : (members.map (·.displayName)).Nodup) :
    (members.mergeSort fun a b => a.displayName ≤ b.displayName).Pairwise fun a b =>
      Utf8.encode a.displayName < Utf8.encode b.displayName := by
  have order := List.pairwise_mergeSort Member.nameLe_trans Member.nameLe_total members
  have perm := (List.mergeSort_perm members Member.nameLe).map (·.displayName)
  have names := perm.nodup_iff.2 distinct
  refine order.imp₂ (fun a b le ne => ?_) (List.pairwise_map.1 names)
  have le : a.displayName ≤ b.displayName := of_decide_eq_true le
  apply Utf8.encode_lt_encode
  by_contra not
  exact ne (String.le_antisymm le (String.not_lt.1 not))

namespace Index

open Snapshot

variable {s : Snapshot} {c : Config} {r : UInt32}

/-- Without private members the listing of the main module has exactly the members of its root, in
strictly ascending order of the bytes of their names. -/
theorem listRoot_perm_listChildren (tidy : s.Tidy) (readable : s.Readable)
    (few : s.modules.length < 2 ^ 32) (main : s.MainModule c r) (shown : c.includePrivate = false)
    (filter : CategorySet) :
    ∃ top below, Answers s (listRoot c filter) (.ok top) ∧
      Answers s (listChildren c ⟨r⟩ filter) (.ok below) ∧ top.Perm below ∧
      top.Pairwise fun a b => Utf8.encode a.displayName < Utf8.encode b.displayName := by
  have sound : s.Sound := ⟨tidy.toClosed, readable⟩
  have short : Utf8.Short c.publicAlias := sound.moduleName ⟨c.publicAlias, r⟩ main.publicAlias
  have listed : Answers s (listRoot c filter) _ := answers_listRoot sound few short
  rw [main.internalRoot?_eq tidy] at listed
  have below := main.perm_children tidy shown
  have distinct := (below.map s.nameOf).nodup_iff.2 (main.nodup_children tidy shown)
  have names : ((s.described c filter (s.rootChildren c (some r))).map (·.displayName)).Nodup :=
    distinct.sublist (sublist_described filter _)
  have same : (s.described c filter (s.rootChildren c (some r))).Perm
      (s.described c filter (s.children c r)) := (below.filterMap (s.describe? c)).filter _
  exact ⟨_, _, listed, answers_listChildren sound main.declares,
    (List.mergeSort_perm _ _).trans same, pairwise_mergeSort_members names⟩

theorem listRoot_perm_listChildren_sample : sample.Tidy ∧ sample.Readable ∧
    sample.modules.length < 2 ^ 32 ∧ sample.MainModule {} 0 ∧
    ({} : Config).includePrivate = false ∧
    ∃ top below, Answers sample (listRoot {} .full) (.ok top) ∧
      Answers sample (listChildren {} ⟨0⟩ .full) (.ok below) ∧ top.Perm below := by
  have few : sample.modules.length < 2 ^ 32 := by decide
  obtain ⟨top, below, found, listed, perm, -⟩ :=
    listRoot_perm_listChildren tidy_sample readable_sample few mainModule_sample rfl .full
  exact ⟨tidy_sample, readable_sample, few, mainModule_sample, rfl, top, below, found, listed, perm⟩

end Index

end DocIndex
