import Mathlib.Data.List.Nodup
import Mathlib.Data.Prod.Lex
import Mathlib.Data.String.Basic
import DocIndex.Proofs.Engine.Table
import DocIndex.Proofs.Snapshot.Ancestry
import DocIndex.Proofs.Text.Words
import DocIndex.Search

/-!
# What a query finds

A query hands out, each of them once, the declarations that are not private and have all its terms
in the spellings of their paths (`perm_query`), in the strict order of their ranks
(`pairwise_rank_query`). A text finds what starts with it, whether case is
ignored or not (`prefix_comparable`): the one letter whose lower-case form depends on what surrounds
it is an upper-case one.
-/

namespace DocIndex

namespace Text

theorem lowercaseAfter_append {s : List Char} (plain : 'Σ' ∉ s) (before t : List Char) :
    lowercaseAfter before (s ++ t) =
      lowercaseAfter before s ++ lowercaseAfter (s.reverse ++ before) t := by
  induction s generalizing before with
  | nil => rfl
  | cons c s ih =>
    rw [List.mem_cons, not_or] at plain
    rw [List.cons_append, lowercaseAfter, lowercaseAfter, ih plain.2, if_neg (Ne.symm plain.1),
      if_neg (Ne.symm plain.1), List.append_assoc, List.reverse_cons, List.append_assoc]
    rfl

/-- A text that is its only word. -/
def IsWord (s : String) : Prop :=
  s ≠ "" ∧ ∀ c ∈ s.toList, isBlank c = false

instance (s : String) : Decidable (IsWord s) :=
  @instDecidableAnd _ _ _ (List.decidableBAll _ s.toList)

end Text

theorem Dotted.Plain.isWord {name : String} (h : Plain name) : Text.IsWord name :=
  ⟨h.1, fun c hc => (h.2 c hc).2.2⟩

namespace Snapshot

variable {s : Snapshot} {ignoreCase : Bool} {text : String} {wanted : List (List Char)} {i : UInt32}

/-! ## Texts that are found -/

theorem terms_of_isWord {name : String} (word : Text.IsWord name) (ignoreCase : Bool) :
    terms ignoreCase name = [comparable ignoreCase name.toList] := by
  have ne : name.toList ≠ [] := by simpa using word.1
  rw [terms, Text.words_eq_singleton ne word.2]
  rfl

theorem terms_ne_nil {name : String} (word : Text.IsWord name) (ignoreCase : Bool) :
    terms ignoreCase name ≠ [] := by
  rw [terms_of_isWord word]
  exact List.cons_ne_nil _ _

theorem prefix_comparable (name : String) (rest : List Char) :
    comparable (ignoresCase name) name.toList <+:
      comparable (ignoresCase name) (name.toList ++ rest) := by
  rw [comparable, comparable]
  split_ifs with folded
  · have plain : 'Σ' ∉ name.toList := by
      intro capital
      have upper : name.toList.any Text.isUpper = true :=
        List.any_eq_true.2 ⟨'Σ', capital, by decide +kernel⟩
      rw [ignoresCase, upper] at folded
      cases folded
    rw [Text.lowercase, Text.lowercase, Text.lowercaseAfter_append plain]
    exact List.prefix_append _ _
  · exact List.prefix_append _ _

/-! ## Declarations with all terms -/

theorem decl?_ofNat {n : Nat} (lt : n < 2 ^ 32) : s.decl? (.ofNat n) = s.decls.toList[n]? := by
  rw [decl?, UInt32.toNat_ofNat', Nat.mod_eq_of_lt lt, Array.getElem?_toList]

theorem nodup_positions (size : s.decls.size < 2 ^ 32) : (positions s.decls.size).Nodup := by
  refine List.Nodup.map_on (fun n hn k hk same => ?_) List.nodup_range
  have word := congrArg UInt32.toNat same
  rw [List.mem_range] at hn hk
  rwa [UInt32.toNat_ofNat', UInt32.toNat_ofNat', Nat.mod_eq_of_lt (hn.trans size),
    Nat.mod_eq_of_lt (hk.trans size)] at word

/-- Whether the declaration is there and not private. -/
def isPublic (s : Snapshot) (i : UInt32) : Bool :=
  (s.decl? i).any (!·.isPrivate)

/-- Whether a declaration is not private and has all the terms. -/
def matching (s : Snapshot) (ignoreCase : Bool) (wanted : List (List Char)) (i : UInt32) : Bool :=
  (s.decl? i).any fun d => !d.isPrivate && s.isHit ignoreCase wanted i

theorem map_index_hits (size : s.decls.size < 2 ^ 32) :
    (s.hits ignoreCase wanted).map (·.index) =
      (positions s.decls.size).filter (s.matching ignoreCase wanted) := by
  have order : positions s.decls.size = s.decls.toList.zipIdx.map (UInt32.ofNat ∘ Prod.snd) := by
    rw [← List.map_map, List.zipIdx_map_snd, positions, List.range_eq_range', Array.length_toList]
  rw [hits, List.map_filterMap, ← List.filterMap_eq_filter, order, List.filterMap_map]
  apply List.filterMap_congr
  rintro ⟨d, n⟩ hd
  rw [List.mk_mem_zipIdx_iff_getElem?] at hd
  have lt : n < s.decls.size := by simpa using (List.getElem?_eq_some_iff.1 hd).1
  rw [← decl?_ofNat (lt.trans size)] at hd
  simp only [Function.comp_apply, Option.guard, matching, hd, Option.any_some]
  split_ifs <;> rfl

theorem query_of_no_terms (h : terms ignoreCase text = []) : s.query text ignoreCase = [] := by
  rw [query, h]

theorem query_of_terms (h : terms ignoreCase text ≠ []) : s.query text ignoreCase =
    ((s.hits ignoreCase (terms ignoreCase text)).mergeSort Hit.le).map (·.index) := by
  rw [query]
  split
  · next none => exact absurd none h
  · rfl

theorem perm_query (size : s.decls.size < 2 ^ 32) (h : terms ignoreCase text ≠ []) :
    (s.query text ignoreCase).Perm
      ((positions s.decls.size).filter (s.matching ignoreCase (terms ignoreCase text))) := by
  rw [query_of_terms h, ← map_index_hits size]
  exact (List.mergeSort_perm _ _).map _

theorem nodup_query (size : s.decls.size < 2 ^ 32) : (s.query text ignoreCase).Nodup := by
  by_cases h : terms ignoreCase text = []
  · rw [query_of_no_terms h]
    exact List.nodup_nil
  · exact (perm_query size h).nodup_iff.2 ((nodup_positions size).filter _)

/-! ## The order of the hits -/

/-- What decides the place of a hit. -/
def Hit.key (h : Hit) : Bool ×ₗ ℕ ×ₗ String ×ₗ ℕ :=
  toLex (!h.exact, toLex (Dotted.dots h.fqn, toLex (h.fqn, h.index.toNat)))

theorem Hit.le_iff {a b : Hit} : a.le b = true ↔ a.key ≤ b.key := by
  simp only [key, Prod.Lex.toLex_le_toLex, Hit.le]
  by_cases exact : a.exact = b.exact
  · by_cases dots : Dotted.dots a.fqn = Dotted.dots b.fqn
    · by_cases path : a.fqn = b.fqn
      · simp [exact, path, UInt32.le_iff_toNat_le]
      · simp [exact, dots, path]
    · simp [exact, dots]
  · cases ha : a.exact <;> cases hb : b.exact <;> simp [ha, hb] at exact ⊢

/-- What decides the place of a declaration among those that a query finds: whether no term is its
name, the number of dots in its path, the path and the position. -/
def rank (s : Snapshot) (ignoreCase : Bool) (wanted : List (List Char)) (i : UInt32) :
    Bool ×ₗ ℕ ×ₗ String ×ₗ ℕ :=
  toLex (decide (comparable ignoreCase (s.nameOf i).toList ∉ wanted),
    toLex (Dotted.dots (s.fqn i), toLex (s.fqn i, i.toNat)))

theorem key_eq_rank (size : s.decls.size < 2 ^ 32) {h : Hit} (hit : h ∈ s.hits ignoreCase wanted) :
    h.key = s.rank ignoreCase wanted h.index := by
  obtain ⟨⟨d, n⟩, hd, found⟩ := List.mem_filterMap.1 hit
  rw [List.mk_mem_zipIdx_iff_getElem?] at hd
  have lt : n < s.decls.size := by simpa using (List.getElem?_eq_some_iff.1 hd).1
  rw [← decl?_ofNat (lt.trans size)] at hd
  dsimp only at found
  split_ifs at found
  cases found
  simp [Hit.key, rank, nameOf_eq hd]

/-- Hits stand in the strict order of their ranks. -/
theorem pairwise_rank_query (size : s.decls.size < 2 ^ 32) :
    (s.query text ignoreCase).Pairwise fun i j =>
      s.rank ignoreCase (terms ignoreCase text) i <
        s.rank ignoreCase (terms ignoreCase text) j := by
  by_cases h : terms ignoreCase text = []
  · rw [query_of_no_terms h]
    exact .nil
  have distinct : (s.query text ignoreCase).Nodup := nodup_query size
  rw [query_of_terms h] at distinct ⊢
  rw [List.nodup_iff_pairwise_ne, List.pairwise_map] at distinct
  rw [List.pairwise_map]
  have trans (a b c : Hit) (hab : a.le b = true) (hbc : b.le c = true) : a.le c = true :=
    Hit.le_iff.2 ((Hit.le_iff.1 hab).trans (Hit.le_iff.1 hbc))
  have total (a b : Hit) : (a.le b || b.le a) = true := by
    rw [Bool.or_eq_true, Hit.le_iff, Hit.le_iff]
    exact le_total _ _
  have sorted := List.pairwise_mergeSort trans total (s.hits ignoreCase (terms ignoreCase text))
  refine (sorted.and distinct).imp_of_mem fun {a b} ha hb ⟨le, ne⟩ => ?_
  rw [List.mem_mergeSort] at ha hb
  rw [← key_eq_rank size ha, ← key_eq_rank size hb]
  -- Equal ranks are those of one position.
  refine lt_of_le_of_ne (Hit.le_iff.1 le) fun same => ne ?_
  have last := congrArg (fun k => (ofLex (ofLex (ofLex k).2).2).2) same
  exact UInt32.toNat_inj.1 last

/-! ## Names that are mentioned -/

/-- Whether the query for a name finds it in one of the spellings of the declaration's path. -/
def Mentions (s : Snapshot) (name : String) (i : UInt32) : Prop :=
  ∃ p ∈ s.spellings i,
    comparable (ignoresCase name) name.toList <:+: comparable (ignoresCase name) p.toList

instance (name : String) (i : UInt32) : Decidable (s.Mentions name i) :=
  inferInstanceAs (Decidable (∃ p ∈ s.spellings i, _))

/-- The query for a name finds the public declarations whose paths it is in. -/
theorem matching_iff_mentions {name : String} (word : Text.IsWord name) :
    s.matching (ignoresCase name) (terms (ignoresCase name) name) i = true ↔
      s.isPublic i = true ∧ s.Mentions name i := by
  have hit : s.isHit (ignoresCase name) (terms (ignoresCase name) name) i = true ↔
      s.Mentions name i := by
    rw [terms_of_isWord word, isHit, Mentions]
    simp only [List.all_cons, List.all_nil, Bool.and_true, List.any_map, List.any_eq_true,
      Function.comp_apply, Text.occursIn_iff]
  rw [← hit, matching, isPublic]
  cases s.decl? i with
  | none => simp
  | some d => simp

end Snapshot

end DocIndex
