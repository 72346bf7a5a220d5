import DocIndex.Proofs.Index.Members
import DocIndex.Proofs.Snapshot.Names

/-!
# Full-text queries and searches

A query finds, each of them once and in the strict order of their ranks, the public declarations
that have all its terms in their paths under the names of modules (`runQuery_finds`). What it finds
depends on the set of its terms alone, and more terms never find more. A search describes, in the
same order, those of the declarations found that stand for one, and cuts the list of descriptions
at the limit (`search_limited`).
-/

namespace DocIndex

namespace Snapshot

variable {s : Snapshot} {ignoreCase : Bool} {text other : String} {i : UInt32}

/-- Whether a term stands in the path of the declaration under the name of some module. -/
def HasTerm (s : Snapshot) (ignoreCase : Bool) (term : List Char) (i : UInt32) : Prop :=
  ∃ m ∈ s.modules, ∃ path, s.PathUnder m i path ∧
    comparable ignoreCase term <:+: comparable ignoreCase path.toList

/-- Whether a declaration is public and has every term of the text. -/
def HasTerms (s : Snapshot) (ignoreCase : Bool) (text : String) (i : UInt32) : Prop :=
  s.isPublic i = true ∧ ∀ term ∈ Text.words text.toList, s.HasTerm ignoreCase term i

theorem terms_eq_nil_iff : terms ignoreCase text = [] ↔ Text.words text.toList = [] := by
  rw [terms, List.map_eq_nil_iff]

namespace Rooted

theorem isHit_iff (rooted : s.Rooted) (hi : s.Declares i) :
    s.isHit ignoreCase (terms ignoreCase text) i = true ↔
      ∀ term ∈ Text.words text.toList, s.HasTerm ignoreCase term i := by
  simp only [isHit, terms, List.all_map, List.all_eq_true, List.any_map, List.any_eq_true,
    Function.comp_apply, Text.occursIn_iff, HasTerm, rooted.mem_spellings_iff_pathUnder hi]
  constructor
  · intro h term hterm
    obtain ⟨path, ⟨m, hm, under⟩, occurs⟩ := h term hterm
    exact ⟨m, hm, path, under, occurs⟩
  · intro h term hterm
    obtain ⟨m, hm, path, under, occurs⟩ := h term hterm
    exact ⟨path, ⟨m, hm, under⟩, occurs⟩

theorem matching_iff (rooted : s.Rooted) :
    s.matching ignoreCase (terms ignoreCase text) i = true ↔ s.HasTerms ignoreCase text i := by
  rw [matching, HasTerms, isPublic]
  cases hd : s.decl? i with
  | none => simp
  | some d =>
    rw [← rooted.isHit_iff (declares_of_decl? hd)]
    simp

theorem mem_query_iff (rooted : s.Rooted) (some_term : terms ignoreCase text ≠ []) :
    i ∈ s.query text ignoreCase ↔ s.HasTerms ignoreCase text i := by
  rw [(perm_query rooted.size_lt some_term).mem_iff, List.mem_filter, rooted.matching_iff,
    mem_positions]
  refine ⟨And.right, fun found => ⟨?_, found⟩⟩
  obtain ⟨d, hd, -⟩ := (Option.any_eq_true _ _).1 found.1
  exact declares_of_decl? hd

end Rooted

/-! ## Other terms -/

theorem rank_congr {wanted wanted' : List (List Char)} (same : ∀ t, t ∈ wanted ↔ t ∈ wanted') :
    s.rank ignoreCase wanted = s.rank ignoreCase wanted' := by
  funext i
  simp only [rank, same]

theorem matching_mono {wanted wanted' : List (List Char)} (less : wanted ⊆ wanted')
    (found : s.matching ignoreCase wanted' i = true) : s.matching ignoreCase wanted i = true := by
  obtain ⟨d, hd, found⟩ := (Option.any_eq_true _ _).1 found
  refine (Option.any_eq_true _ _).2 ⟨d, hd, ?_⟩
  rw [Bool.and_eq_true, isHit, List.all_eq_true] at found ⊢
  exact ⟨found.1, fun term hterm => found.2 term (less hterm)⟩

/-- More terms find no more declarations. -/
theorem query_subset (size : s.decls.size < 2 ^ 32) (some_term : terms ignoreCase text ≠ [])
    (less : terms ignoreCase text ⊆ terms ignoreCase other) :
    s.query other ignoreCase ⊆ s.query text ignoreCase := by
  intro i hi
  have some_term' : terms ignoreCase other ≠ [] := by
    intro none
    rw [none, List.subset_nil] at less
    exact some_term less
  rw [(perm_query size some_term').mem_iff, List.mem_filter] at hi
  rw [(perm_query size some_term).mem_iff, List.mem_filter]
  exact ⟨hi.1, matching_mono less hi.2⟩

/-- Texts with the same set of terms find the same declarations in the same order. -/
theorem query_congr (size : s.decls.size < 2 ^ 32)
    (same : ∀ t, t ∈ terms ignoreCase text ↔ t ∈ terms ignoreCase other) :
    s.query text ignoreCase = s.query other ignoreCase := by
  by_cases none : terms ignoreCase text = []
  · have none' : terms ignoreCase other = [] :=
      List.eq_nil_iff_forall_not_mem.2 fun t ht => by simp [← same t, none] at ht
    rw [query_of_no_terms none, query_of_no_terms none']
  · have none' : terms ignoreCase other ≠ [] := by
      intro none'
      exact none (List.eq_nil_iff_forall_not_mem.2 fun t ht => by simp [same t, none'] at ht)
    let before (i j : UInt32) : Prop := s.rank ignoreCase (terms ignoreCase other) i <
      s.rank ignoreCase (terms ignoreCase other) j
    have sorted' : (s.query other ignoreCase).Pairwise before := pairwise_rank_query size
    have sorted : (s.query text ignoreCase).Pairwise before := by
      have own : (s.query text ignoreCase).Pairwise _ := pairwise_rank_query size
      rwa [rank_congr same] at own
    have irrefl : Std.Irrefl before := ⟨fun _ => lt_irrefl _⟩
    have asymm : Std.Antisymm before := ⟨fun _ _ h h' => (lt_asymm h h').elim⟩
    refine sorted.eq_of_mem_iff sorted' fun i => ⟨fun hi => ?_, fun hi => ?_⟩
    · exact query_subset size none' (fun t => (same t).2) hi
    · exact query_subset size none (fun t => (same t).1) hi

theorem kept_query (size : s.decls.size < 2 ^ 32) :
    Slice.kept (s.query text ignoreCase) = s.query text ignoreCase :=
  kept_of_nodup size (nodup_query size) fun _ hi => declares_of_mem_query size hi

end Snapshot

namespace Index

open Snapshot

variable {s : Snapshot}

/-! ## Queries -/

/-- A query with terms finds the public declarations that have each term in their path under the
name of some module, each of them once: first those that are named like a term, then by the number
of dots in the path, the path and the position. It finds the same with other terms of the same set
and nothing new with more terms, and without terms it finds nothing. -/
theorem runQuery_finds (rooted : s.Rooted) {text : String} (short : Utf8.Short text)
    (ignoreCase : Bool) : ∃ found : List UInt32,
      Answers s (runQuery text ignoreCase) (.ok (found.map Handle.mk)) ∧
      (Text.words text.toList = [] → found = []) ∧
      (Text.words text.toList ≠ [] → ∀ i, i ∈ found ↔ s.HasTerms ignoreCase text i) ∧
      found.Nodup ∧
      (found.Pairwise fun i j => s.rank ignoreCase (terms ignoreCase text) i <
        s.rank ignoreCase (terms ignoreCase text) j) ∧
      (∀ other, Utf8.Short other →
        (∀ t, t ∈ terms ignoreCase text ↔ t ∈ terms ignoreCase other) →
        Answers s (runQuery other ignoreCase) (.ok (found.map Handle.mk))) ∧
      ∀ other, Utf8.Short other → Text.words text.toList ≠ [] →
        terms ignoreCase text ⊆ terms ignoreCase other →
        ∃ fewer : List UInt32, fewer ⊆ found ∧
          Answers s (runQuery other ignoreCase) (.ok (fewer.map Handle.mk)) := by
  have size := rooted.size_lt
  have answers (t : String) (ht : Utf8.Short t) :
      Answers s (runQuery t ignoreCase) (.ok ((s.query t ignoreCase).map Handle.mk)) := by
    have answer := answers_runQuery (s := s) ht ignoreCase
    rwa [kept_query size] at answer
  have some_term (ne : Text.words text.toList ≠ []) : terms ignoreCase text ≠ [] :=
    fun none => ne (terms_eq_nil_iff.1 none)
  refine ⟨s.query text ignoreCase, answers text short, fun none => ?_, fun ne i => ?_, ?_, ?_,
    fun other short' same => ?_, fun other short' ne less => ?_⟩
  · exact query_of_no_terms (terms_eq_nil_iff.2 none)
  · exact rooted.mem_query_iff (some_term ne)
  · exact nodup_query size
  · exact pairwise_rank_query size
  · rw [query_congr size same]
    exact answers other short'
  · exact ⟨s.query other ignoreCase, query_subset size (some_term ne) less, answers other short'⟩

/-- The three terms are found in different spellings of one path, and their case is ignored. -/
theorem runQuery_finds_sample : sample.Rooted ∧ Utf8.Short "STD root eql" ∧
    Utf8.Short "eql root std Eql" ∧ ∃ found : List UInt32, 4 ∈ found ∧ found.Nodup ∧
      Answers sample (runQuery "STD root eql" true) (.ok (found.map Handle.mk)) ∧
      Answers sample (runQuery "eql root std Eql" true) (.ok (found.map Handle.mk)) := by
  have short : Utf8.Short "STD root eql" := by decide +kernel
  have short' : Utf8.Short "eql root std Eql" := by decide +kernel
  obtain ⟨found, answer, -, finds, distinct, -, same, -⟩ :=
    runQuery_finds tidy_sample.rooted short true
  have under (m : ModuleEntry) (root : m.root = 0) :
      sample.PathUnder m 4 (m.name ++ "." ++ "mem" ++ "." ++ "eql") := by
    refine .member (p := 1) rfl (.member (p := 0) rfl ?_)
    rw [← root]
    exact .root
  refine ⟨tidy_sample.rooted, short, short', found, ?_, distinct, answer, same _ short' ?_⟩
  · have words : Text.words "STD root eql".toList =
        ["STD".toList, "root".toList, "eql".toList] := by
      decide +kernel
    have some_word : Text.words "STD root eql".toList ≠ [] := by
      rw [words]
      exact List.cons_ne_nil _ _
    rw [finds some_word, HasTerms, words]
    refine ⟨by decide +kernel, List.forall_mem_cons.2 ⟨?_, List.forall_mem_cons.2 ⟨?_,
      List.forall_mem_singleton.2 ?_⟩⟩⟩
    · exact ⟨⟨"std", 0⟩, by simp [sample], _, under _ rfl, by decide +kernel⟩
    · exact ⟨⟨"root", 0⟩, by simp [sample], _, under _ rfl, by decide +kernel⟩
    · exact ⟨⟨"root", 0⟩, by simp [sample], _, under _ rfl, by decide +kernel⟩
  · have here : terms true "STD root eql" = ["std".toList, "root".toList, "eql".toList] := by
      decide +kernel
    have there : terms true "eql root std Eql" =
        ["eql".toList, "root".toList, "std".toList, "eql".toList] := by
      decide +kernel
    intro t
    rw [here, there]
    simp only [List.mem_cons, List.not_mem_nil, or_false]
    tauto

/-! ## Searches -/

variable {c : Config} {query : String}

/-- What a search says of a declaration: its own name and public path, with the category and the
summary of the declaration that it stands for. -/
structure Describes (s : Snapshot) (c : Config) (hit : SearchHit) : Prop where
  name : Answers s (declaredName hit.handle) (.ok hit.name)
  path : ∃ fqn, Answers s (fullyQualifiedName hit.handle) (.ok fqn) ∧ hit.fqn = c.publicName fqn
  target : ∃ t docs, Answers s (unwind hit.handle) (.ok (.concrete t hit.category)) ∧
    Answers s (docsHtml t true) (.ok docs) ∧ hit.brief = Markup.inline docs

theorem describes_of_hit? (sound : s.Sound) {i : UInt32} (hi : s.Declares i) {hit : SearchHit}
    (told : s.hit? c i = some hit) : Describes s c hit := by
  obtain ⟨⟨t, d⟩, shown, rfl⟩ := Option.map_eq_some_iff.1 told
  obtain ⟨e, he⟩ := exists_decl?_iff.2 hi
  obtain ⟨way, unwound, concrete⟩ := exists_answers_unwind sound.toClosed hi
  rw [shown] at concrete
  have way_eq : way = .concrete ⟨t⟩ d.category := by
    cases way with
    | concrete h category => cases concrete; rfl
    | dangling h => cases concrete
    | cycle h => cases concrete
  rw [way_eq] at unwound
  refine ⟨?_, ⟨_, answers_fullyQualifiedName hi (sound.fqn i hi), rfl⟩,
    _, _, unwound, answers_docsHtml sound (shown?_eq_some_iff.1 shown).2 true, rfl⟩
  simpa [nameOf_eq he] using answers_declaredName sound he

/-- A declaration is described if unwinding it leads to a declaration that is no alias. -/
theorem hit?_ne_none_iff (sound : s.Sound) {i : UInt32} (hi : s.Declares i) :
    s.hit? c i ≠ none ↔
      ∃ t category, Answers s (unwind ⟨i⟩) (.ok (.concrete t category)) := by
  constructor
  · intro told
    obtain ⟨hit, told⟩ := Option.ne_none_iff_exists'.1 told
    have handle : hit.handle = ⟨i⟩ := by
      obtain ⟨shown, -, rfl⟩ := Option.map_eq_some_iff.1 told
      rfl
    obtain ⟨t, -, unwound, -⟩ := (describes_of_hit? sound hi told).target
    rw [handle] at unwound
    exact ⟨t, hit.category, unwound⟩
  · rintro ⟨t, category, unwound⟩ none
    obtain ⟨way, unwound', concrete⟩ := exists_answers_unwind sound.toClosed hi
    have same := (unwound' _ (Table.serves_start s)).1.symm.trans
      (unwound _ (Table.serves_start s)).1
    cases same
    rw [Option.map_eq_none_iff.1 none] at concrete
    cases concrete

/-- The declarations that are described, in the order of the list. -/
theorem map_handle_filterMap_hit? (l : List UInt32) : (l.filterMap (s.hit? c)).map (·.handle) =
    (l.filter fun i => (s.hit? c i).isSome).map Handle.mk := by
  induction l with
  | nil => rfl
  | cons i l ih =>
    cases told : s.hit? c i with
    | none => simp [told, ih]
    | some hit =>
      obtain ⟨shown, -, rfl⟩ := Option.map_eq_some_iff.1 told
      simp [told, ih]

/-- What the search for a query says of the declarations that it finds, without a limit. -/
def unlimited (s : Snapshot) (c : Config) (query : String) : List SearchHit :=
  (s.query (trimmed query) (ignoresCase (trimmed query))).filterMap (s.hit? c)

theorem answers_search_take (sound : s.Sound) (c : Config) (short : Utf8.Short (trimmed query))
    (limit : Nat) : Answers s (search { c with searchLimit := limit } query)
      (.ok ((unlimited s c query).take limit)) := by
  have told := answers_search (c := { c with searchLimit := limit }) sound short
  rw [found] at told
  split_ifs at told with blank
  · have none : unlimited s c query = [] := by
      rw [unlimited, blank, query_of_no_terms (by decide)]
      rfl
    rwa [none, List.take_nil]
  · rwa [hitsOf, kept_query sound.size_lt] at told

/-- With whatever limit, a search finds the first ones of the same list: the declarations that the
query finds, without those whose aliases lead nowhere. -/
theorem search_limited (sound : s.Sound) (c : Config) (short : Utf8.Short (trimmed query)) :
    ∃ (handles : List Handle) (all : List SearchHit),
      (ignoresCase (trimmed query) = true ↔ ∀ x ∈ (trimmed query).toList, Text.isUpper x = false) ∧
      Answers s (runQuery (trimmed query) (ignoresCase (trimmed query))) (.ok handles) ∧
      handles.Nodup ∧ (all.map (·.handle)).Sublist handles ∧
      (∀ h ∈ handles, h ∈ all.map (·.handle) ↔
        ∃ t category, Answers s (unwind h) (.ok (.concrete t category))) ∧
      (∀ hit ∈ all, Describes s c hit) ∧
      (∀ limit, s.decls.size ≤ limit →
        Answers s (search { c with searchLimit := limit } query) (.ok all)) ∧
      ∀ m n, m ≤ n → ∃ few more : List SearchHit,
        Answers s (search { c with searchLimit := m } query) (.ok few) ∧
        Answers s (search { c with searchLimit := n } query) (.ok more) ∧
        few <+: more ∧ few.length = min m more.length ∧ few = all.take m := by
  have size := sound.size_lt
  have asked := answers_runQuery (s := s) short (ignoresCase (trimmed query))
  have search_take := answers_search_take sound c short
  rw [kept_query size] at asked
  rw [unlimited] at search_take
  set l := s.query (trimmed query) (ignoresCase (trimmed query)) with l_eq
  have declared : ∀ i ∈ l, s.Declares i := fun i hi => declares_of_mem_query size hi
  have few_enough : l.length ≤ s.decls.size := by
    have listed : l ⊆ positions s.decls.size := fun i hi => mem_positions.2 (declared i hi)
    have le := ((nodup_query size).subperm listed).length_le
    rwa [positions, List.length_map, List.length_range] at le
  refine ⟨l.map Handle.mk, l.filterMap (s.hit? c), by simp [ignoresCase], asked, ?_, ?_, ?_, ?_,
    fun limit enough => ?_, fun m n le => ⟨_, _, search_take m, search_take n, ?_, ?_, rfl⟩⟩
  · exact (nodup_query size).map fun i j same => Handle.mk.inj same
  · rw [map_handle_filterMap_hit?]
    exact List.filter_sublist.map _
  · rw [List.forall_mem_map]
    intro i hi
    rw [← hit?_ne_none_iff (c := c) sound (declared i hi), map_handle_filterMap_hit?,
      List.mem_map_of_injective fun i j same => Handle.mk.inj same, List.mem_filter,
      Option.isSome_iff_ne_none]
    exact and_iff_right hi
  · intro hit hhit
    obtain ⟨i, hi, told⟩ := List.mem_filterMap.1 hhit
    exact describes_of_hit? sound (declared i hi) told
  · have whole := search_take limit
    rwa [List.take_of_length_le] at whole
    exact (List.length_filterMap_le _ _).trans (few_enough.trans enough)
  · exact List.take_prefix_take_left le
  · rw [List.length_take, List.length_take]
    omega

/-- A snapshot in which the first of three declarations that a query finds is an alias of itself. -/
def loops : Snapshot where
  modules := [⟨"root", 0⟩]
  decls := #[
    { name := "root", category := .nameSpace, members := [1, 2, 3] },
    { name := "loop", parent := some 0, category := .redirect, aliasee := some 1 },
    { name := "looped", parent := some 0, category := .function, docsHtml := "<p>Goes round.</p>" },
    { name := "loops", parent := some 0, category := .redirect, aliasee := some 2 }]

theorem search_limited_loops : loops.Sound ∧ Utf8.Short (trimmed " loop") ∧
    ∃ few more : List SearchHit,
      Answers loops (search { searchLimit := 1 } " loop") (.ok few) ∧
      Answers loops (search { searchLimit := 2 } " loop") (.ok more) ∧
      few <+: more ∧ few.length = min 1 more.length := by
  have sound : loops.Sound := ⟨by decide +kernel, by decide +kernel⟩
  have short : Utf8.Short (trimmed " loop") := by decide +kernel
  obtain ⟨handles, all, -, -, -, -, -, -, -, cut⟩ := search_limited sound {} short
  obtain ⟨few, more, hfew, hmore, front, length, -⟩ := cut 1 2 (by decide)
  exact ⟨sound, short, few, more, hfew, hmore, front, length⟩

end Index

end DocIndex
