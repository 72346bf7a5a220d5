import DocIndex.Member
import DocIndex.Proofs.Index.Sound
import DocIndex.Proofs.Snapshot.Query

/-!
# What listings and searches answer

Over a sound snapshot every listing and every search is a function of the snapshot. A member is
described by its own name and path and by what it stands for, and one that stands for nothing is
skipped (`Snapshot.describe?`). The children that a listing describes are those of what the listed
declaration stands for (`Snapshot.children`), or what the query for the public alias finds
(`Snapshot.rootChildren`).
-/

namespace DocIndex

namespace Snapshot

variable (s : Snapshot) (c : Config)

/-- What a listing says of a declaration; nothing if it stands for none. -/
def describe? (i : UInt32) : Option Member :=
  (s.shown? i).map fun (_, d) =>
    { handle := ⟨i⟩, displayName := s.nameOf i, category := d.category
      briefDoc := Markup.inline (summary d.docsHtml), path := c.publicName (s.fqn i) }

/-- What a listing of the wanted categories says of some declarations. -/
def described (filter : CategorySet) (l : List UInt32) : List Member :=
  (l.filterMap (s.describe? c)).filter fun m => filter.admits m.category

/-- The declarations that are listed below a declaration. -/
def children (i : UInt32) : List UInt32 :=
  ((s.shown? i).map fun (_, d) =>
    Slice.kept (s.visibleMembers Category.hasMembers d c.includePrivate)).getD []

/-- The declarations of a list that are exactly one level below the internal root, the first one of
each name. -/
def topLevel (seen : List String) : List UInt32 → List UInt32
  | [] => []
  | i :: rest =>
    match Index.topLevelName? c (s.fqn i) with
    | none => topLevel seen rest
    | some name =>
      if name ∈ seen then topLevel seen rest else i :: topLevel (name :: seen) rest

/-- The declarations that a query hands out. -/
def hitsOf (text : String) : List UInt32 :=
  Slice.kept (s.query text (ignoresCase text))

/-- The root of the module named like the internal root. -/
def internalRoot? : Option UInt32 :=
  (s.namedModule? c.internalRoot).map (·.root)

/-- The declarations that are listed for the main module, if the module named like the internal root
has the given root. -/
def rootChildren (root : Option UInt32) : List UInt32 :=
  let found := s.topLevel c [] (s.hitsOf c.publicAlias)
  if found.isEmpty then
    ((root.bind s.decl?).map fun d =>
      Slice.kept (s.visibleMembers Category.isScope d c.includePrivate)).getD []
  else found

/-- What a search says of a declaration; nothing if it stands for none. -/
def hit? (i : UInt32) : Option SearchHit :=
  (s.shown? i).map fun (_, d) =>
    { handle := ⟨i⟩, name := s.nameOf i, fqn := c.publicName (s.fqn i), category := d.category
      brief := Markup.inline (summary d.docsHtml) }

/-- What a search finds. -/
def found (query : String) : List SearchHit :=
  if trimmed query = "" then []
  else ((s.hitsOf (trimmed query)).filterMap (s.hit? c)).take c.searchLimit

variable {s c} {i p t : UInt32} {d : Decl} {l : List UInt32}

/-! ## Queries -/

theorem declares_of_mem_query (size : s.decls.size < 2 ^ 32) {text : String} {ignoreCase : Bool}
    (h : i ∈ s.query text ignoreCase) : s.Declares i := by
  by_cases blank : terms ignoreCase text = []
  · rw [query_of_no_terms blank] at h
    cases h
  · exact mem_positions.1 (List.mem_of_mem_filter ((perm_query size blank).mem_iff.1 h))

theorem declares_of_mem_hitsOf (size : s.decls.size < 2 ^ 32) (text : String) :
    ∀ i ∈ s.hitsOf text, s.Declares i :=
  fun _ h => declares_of_mem_query size (Slice.mem_of_mem_kept h)

theorem ModulesClosed.declares_of_internalRoot? (closed : s.ModulesClosed)
    (h : s.internalRoot? c = some i) : s.Declares i := by
  obtain ⟨m, hm, rfl⟩ := Option.map_eq_some_iff.1 h
  exact closed.moduleRoot m (namedModule?_spec hm).1

theorem mem_of_mem_topLevel {seen : List String} (h : i ∈ s.topLevel c seen l) : i ∈ l := by
  induction l generalizing seen with
  | nil => exact h
  | cons j l ih =>
    rw [topLevel] at h
    split at h
    · exact List.mem_cons_of_mem j (ih h)
    · split_ifs at h
      · exact List.mem_cons_of_mem j (ih h)
      · exact (List.mem_cons.1 h).elim (fun same => same ▸ List.mem_cons_self)
          fun later => List.mem_cons_of_mem j (ih later)

/-! ## Visible members -/

theorem sublist_visibleMembers {wanted : Category → Bool} {includePrivate : Bool} :
    (s.visibleMembers wanted d includePrivate).Sublist d.members := by
  rw [visibleMembers]
  split_ifs
  · exact List.filter_sublist
  · exact List.nil_sublist _

theorem Closed.declares_of_mem_visible (closed : s.Closed) (hd : s.decl? i = some d)
    {wanted : Category → Bool} {includePrivate : Bool} :
    ∀ m ∈ Slice.kept (s.visibleMembers wanted d includePrivate), s.Declares m := by
  intro m hm
  have listed := sublist_visibleMembers.subset (Slice.mem_of_mem_kept hm)
  exact closed.member d (mem_of_decl? hd) m listed

theorem visibleMembers_congr {wanted wanted' : Category → Bool} {includePrivate : Bool}
    (h : wanted d.category = wanted' d.category) :
    s.visibleMembers wanted d includePrivate = s.visibleMembers wanted' d includePrivate := by
  rw [visibleMembers, visibleMembers, h]

theorem visibleMembers_of_not {wanted : Category → Bool} {includePrivate : Bool}
    (h : ¬ wanted d.category = true) : s.visibleMembers wanted d includePrivate = [] := by
  rw [visibleMembers, if_neg h]

/-- The members of a declaration that are not private. -/
def publicMembers (s : Snapshot) (d : Decl) : List UInt32 :=
  d.members.filter s.isPublic

theorem visibleMembers_eq {wanted : Category → Bool} (scope : wanted d.category = true) :
    s.visibleMembers wanted d false = s.publicMembers d ∧
      s.visibleMembers wanted d true = d.members := by
  rw [visibleMembers, visibleMembers, if_pos scope, if_pos scope]
  exact ⟨rfl, by simp⟩

theorem mem_visibleMembers_iff {wanted : Category → Bool} (scope : wanted d.category = true)
    {includePrivate : Bool} : i ∈ s.visibleMembers wanted d includePrivate ↔
      i ∈ d.members ∧ (s.isPublic i = true ∨ includePrivate = true) := by
  rw [visibleMembers, if_pos scope, List.mem_filter, Bool.or_eq_true, or_comm]
  rfl

theorem kept_of_nodup (size : s.decls.size < 2 ^ 32) (distinct : l.Nodup)
    (declared : ∀ i ∈ l, s.Declares i) : Slice.kept l = l := by
  have listed : l ⊆ positions s.decls.size := fun i hi => mem_positions.2 (declared i hi)
  have le := (distinct.subperm listed).length_le
  rw [positions, List.length_map, List.length_range] at le
  exact Slice.kept_eq_self (le.trans_lt size)

theorem Tidy.kept_members (tidy : s.Tidy) (hd : s.decl? p = some d) (sub : l.Sublist d.members) :
    Slice.kept l = l := by
  have here := mem_of_decl? hd
  exact kept_of_nodup tidy.size_lt (sub.nodup (tidy.nodup_members d here)) fun i hi =>
    tidy.member d here i (sub.subset hi)

theorem children_of_shown? (h : s.shown? i = some (t, d)) : s.children c i =
    Slice.kept (s.visibleMembers Category.hasMembers d c.includePrivate) := by
  rw [children, h]
  rfl

/-! ## Descriptions -/

theorem describe?_spec {m : Member} (h : s.describe? c i = some m) :
    m.handle = ⟨i⟩ ∧ m.displayName = s.nameOf i := by
  obtain ⟨shown, -, rfl⟩ := Option.map_eq_some_iff.1 h
  exact ⟨rfl, rfl⟩

theorem sublist_described (filter : CategorySet) (l : List UInt32) :
    ((s.described c filter l).map (·.displayName)).Sublist (l.map s.nameOf) := by
  refine (List.filter_sublist.map _).trans ?_
  induction l with
  | nil => exact .refl _
  | cons i l ih =>
    cases described : s.describe? c i with
    | none =>
      rw [List.filterMap_cons_none described]
      exact ih.cons _
    | some m =>
      rw [List.filterMap_cons_some described, List.map_cons, (describe?_spec described).2]
      exact ih.cons_cons _

theorem described_full (l : List UInt32) : s.described c .full l = l.filterMap (s.describe? c) :=
  List.filter_eq_self.2 fun m _ => CategorySet.admits_full m.category

theorem exists_mem_described_iff : (∃ m ∈ s.described c .full l, m.handle = ⟨i⟩) ↔
    i ∈ l ∧ s.follow i ≠ none := by
  have told_iff : s.describe? c i ≠ none ↔ s.follow i ≠ none := by
    rw [describe?, Ne, Option.map_eq_none_iff, shown?_eq_none_iff]
  rw [described_full, ← told_iff]
  simp only [List.mem_filterMap]
  constructor
  · rintro ⟨m, ⟨j, hj, told⟩, same⟩
    rw [(describe?_spec told).1] at same
    cases same
    exact ⟨hj, by simp [told]⟩
  · rintro ⟨hi, told⟩
    obtain ⟨m, hm⟩ := Option.ne_none_iff_exists'.1 told
    exact ⟨m, ⟨i, hi, hm⟩, (describe?_spec hm).1⟩

end Snapshot

theorem Category.isScope_eq_hasMembers {category : Category} (other : category ≠ .typeFunction) :
    category.isScope = category.hasMembers := by
  revert other
  cases category <;> decide

theorem Category.hasMembers_of_isScope {category : Category} (scope : category.isScope = true) :
    category.hasMembers = true := by
  revert scope
  cases category <;> decide

namespace Index

open Snapshot Table

variable {s : Snapshot} {c : Config} {i : UInt32} {filter : CategorySet}

/-! ## Members -/

theorem answers_describe (sound : s.Sound) (hi : s.Declares i) :
    Answers s (describe c ⟨i⟩) (.ok (s.describe? c i)) := by
  obtain ⟨d, hd⟩ := exists_decl?_iff.2 hi
  obtain ⟨way, unwound, shown⟩ := exists_answers_unwind sound.toClosed hi
  refine (answers_declaredName sound hd).bind (unwound.bind ?_)
  rw [shown, describe?, nameOf_eq hd]
  cases hs : s.shown? i with
  | none => exact answers_pure s none
  | some shown =>
    have docs := answers_docsHtml sound (shown?_eq_some_iff.1 hs).2 true
    exact docs.bind ((answers_fullyQualifiedName hi (sound.fqn i hi)).bind (answers_pure s _))

theorem answers_describeAll (sound : s.Sound) {l : List UInt32} (declared : ∀ i ∈ l, s.Declares i) :
    Answers s (describeAll c filter (l.map Handle.mk)) (.ok (s.described c filter l)) := by
  induction l with
  | nil => exact answers_pure s []
  | cons i l ih =>
    rw [List.forall_mem_cons] at declared
    refine (answers_describe sound declared.1).bind ((ih declared.2).bind ?_)
    cases hm : s.describe? c i with
    | none => simpa [described, hm] using answers_pure s _
    | some m =>
      by_cases wanted : filter.admits m.category = true
      · simpa [described, hm, wanted, Option.filter] using answers_pure s _
      · simpa [described, hm, wanted, Option.filter] using answers_pure s _

theorem answers_listChildren (sound : s.Sound) (hi : s.Declares i) :
    Answers s (listChildren c ⟨i⟩ filter) (.ok (s.described c filter (s.children c i))) := by
  obtain ⟨way, unwound, shown⟩ := exists_answers_unwind sound.toClosed hi
  refine unwound.bind ?_
  rw [shown, children]
  cases hs : s.shown? i with
  | none => exact answers_pure s []
  | some shown =>
    obtain ⟨t, d⟩ := shown
    have hd := (shown?_eq_some_iff.1 hs).2
    have declared (wanted : Category → Bool) :
        ∀ m ∈ Slice.kept (s.visibleMembers wanted d c.includePrivate), s.Declares m :=
      sound.declares_of_mem_visible hd
    simp only [Option.map_some, Option.getD_some]
    split_ifs with function scope
    · have same : s.visibleMembers Category.hasMembers d c.includePrivate =
          s.visibleMembers (· = .typeFunction) d c.includePrivate :=
        visibleMembers_congr (by rw [function]; rfl)
      rw [same]
      exact (answers_typeFunctionMembers hd _).bind (answers_describeAll sound (declared _))
    · rw [← visibleMembers_congr (Category.isScope_eq_hasMembers function)]
      exact (answers_namespaceMembers hd _).bind (answers_describeAll sound (declared _))
    · rw [visibleMembers_of_not scope]
      exact answers_pure s []

/-! ## The main module -/

theorem runQuery_run {text : String} (counted : Utf8.Counted text) (ignoreCase : Bool)
    (m : Machine Table) : runQuery text ignoreCase m =
      (callSlice Slice.words .queryExec [flag ignoreCase] >>= fun l => pure (l.map Handle.mk))
        (holding text m) := by
  unfold runQuery callHandles callWords
  rw [run_bind, stage_run (by decide) counted]

theorem answers_runQuery {text : String} (short : Utf8.Short text) (ignoreCase : Bool) :
    Answers s (runQuery text ignoreCase)
      (.ok ((Slice.kept (s.query text ignoreCase)).map Handle.mk)) := by
  intro m hm
  have reply : s.reply (input (holding text m)) .queryExec [flag ignoreCase] =
      .ok (.words (s.query text ignoreCase)) := by
    rw [input_holding]
    cases ignoreCase <;> rfl
  have words := callSlice_of_reply (by decide) (hm.holding short) reply (readsBack_words _)
  rw [runQuery_run short.counted]
  exact Answers.bind_run (answers_pure s _) words

theorem answers_topLevel (sound : s.Sound) {seen : List String} {l : List UInt32}
    (declared : ∀ i ∈ l, s.Declares i) :
    Answers s (topLevel c seen (l.map Handle.mk)) (.ok ((s.topLevel c seen l).map Handle.mk)) := by
  induction l generalizing seen with
  | nil => exact answers_pure s []
  | cons i l ih =>
    rw [List.forall_mem_cons] at declared
    refine (answers_fullyQualifiedName declared.1 (sound.fqn i declared.1)).bind ?_
    rw [Snapshot.topLevel]
    cases topLevelName? c (s.fqn i) with
    | none => exact ih declared.2
    | some name =>
      simp only
      split_ifs
      · exact ih declared.2
      · exact (ih declared.2).bind (answers_pure s _)

theorem answers_moduleRootNamed_internalRoot (sound : s.Sound) (few : s.modules.length < 2 ^ 32) :
    Answers s (moduleRootNamed c.internalRoot) (.ok ((s.internalRoot? c).map Handle.mk)) := by
  rw [internalRoot?, Option.map_map]
  exact answers_moduleRootNamed few sound.moduleName sound.toModulesClosed c.internalRoot

/-- The module named like the internal root is looked for only if the query for the alias finds
nothing. -/
theorem answers_listRoot (sound : s.Sound) (few : s.modules.length < 2 ^ 32)
    (short : Utf8.Short c.publicAlias) :
    Answers s (listRoot c filter)
      (.ok ((s.described c filter (s.rootChildren c (s.internalRoot? c))).mergeSort
        fun a b => a.displayName ≤ b.displayName)) := by
  have hits := declares_of_mem_hitsOf sound.size_lt c.publicAlias
  have listed {l : List UInt32} (hl : ∀ i ∈ l, s.Declares i) : Answers s
      (do
        let members ← describeAll c filter (l.map Handle.mk)
        return members.mergeSort fun a b => a.displayName ≤ b.displayName)
      (.ok ((s.described c filter l).mergeSort fun a b => a.displayName ≤ b.displayName)) :=
    (answers_describeAll sound hl).bind (answers_pure s _)
  refine (answers_runQuery short _).bind ((answers_topLevel sound hits).bind ?_)
  unfold rootChildren
  by_cases none : s.topLevel c [] (s.hitsOf c.publicAlias) = []
  · simp only [none, List.map_nil, List.isEmpty_nil, if_true]
    refine (answers_moduleRootNamed_internalRoot sound few).bind ?_
    cases root : s.internalRoot? c with
    | none =>
      have nothing := listed (List.forall_mem_nil s.Declares)
      exact (answers_pure s []).bind nothing
    | some r =>
      obtain ⟨d, hd⟩ := exists_decl?_iff.2 (sound.declares_of_internalRoot? root)
      refine (answers_namespaceMembers hd _).bind ?_
      simp only [Option.bind_some, hd]
      exact listed (sound.declares_of_mem_visible hd)
  · have some : (s.topLevel c [] (s.hitsOf c.publicAlias)).isEmpty = false := by simpa using none
    simp only [List.isEmpty_map, some]
    exact (answers_pure s _).bind (listed fun i hi => hits i (mem_of_mem_topLevel hi))

/-! ## Searches -/

theorem answers_describeHit (sound : s.Sound) (hi : s.Declares i) :
    Answers s (describeHit c ⟨i⟩) (.ok (s.hit? c i)) := by
  obtain ⟨d, hd⟩ := exists_decl?_iff.2 hi
  obtain ⟨way, unwound, shown⟩ := exists_answers_unwind sound.toClosed hi
  refine unwound.bind ?_
  rw [shown, hit?, nameOf_eq hd]
  cases hs : s.shown? i with
  | none => exact answers_pure s none
  | some shown =>
    have docs := answers_docsHtml sound (shown?_eq_some_iff.1 hs).2 true
    refine (answers_declaredName sound hd).bind ?_
    exact (answers_fullyQualifiedName hi (sound.fqn i hi)).bind (docs.bind (answers_pure s _))

theorem answers_describeHits (sound : s.Sound) {limit : Nat} {l : List UInt32}
    (declared : ∀ i ∈ l, s.Declares i) :
    Answers s (describeHits c limit (l.map Handle.mk))
      (.ok ((l.filterMap (s.hit? c)).take limit)) := by
  induction l generalizing limit with
  | nil => cases limit <;> exact answers_pure s []
  | cons i l ih =>
    rw [List.forall_mem_cons] at declared
    cases limit with
    | zero => exact answers_pure s []
    | succ limit =>
      refine (answers_describeHit sound declared.1).bind ?_
      cases hh : s.hit? c i with
      | none =>
        rw [List.filterMap_cons_none hh]
        exact ih declared.2
      | some hit =>
        rw [List.filterMap_cons_some hh, List.take_succ_cons]
        exact (ih declared.2).bind (answers_pure s _)

theorem answers_search (sound : s.Sound) {query : String} (short : Utf8.Short (trimmed query)) :
    Answers s (search c query) (.ok (s.found c query)) := by
  unfold search found
  by_cases blank : trimmed query = ""
  · rw [if_pos blank, if_pos blank]
    exact answers_pure s []
  · rw [if_neg blank, if_neg blank]
    have hits := declares_of_mem_hitsOf sound.size_lt (trimmed query)
    exact (answers_runQuery short _).bind (answers_describeHits sound hits)

end Index

end DocIndex
