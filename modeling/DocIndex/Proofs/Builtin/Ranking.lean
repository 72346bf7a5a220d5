import Mathlib.Data.List.Infix
import Mathlib.Data.List.Nodup
import Mathlib.Data.Prod.Lex
import Mathlib.Data.String.Basic
import DocIndex.Builtin.Rank

/-!
# The ranking of builtins

A keyword ranks the builtins whose names have it (`rank_eq`), in the order of their keys
(`RankedBuiltin.le_iff`). The name is the keyword, goes on behind it or has it further inside
(`Standing`); a short name gains at most a hundred points, fewer than lie between two of these
(`score_lt_score`), so the best standing comes first whatever the lengths are.
-/

namespace DocIndex

namespace Builtin

/-! ## How a keyword stands in a name -/

/-- How a keyword stands in a name that has it. -/
inductive Standing where
  /-- It is the whole name. -/
  | whole
  /-- The name goes on behind it. -/
  | front
  /-- It stands further inside only. -/
  | inside
  deriving DecidableEq, Repr

namespace Standing

/-- The place of a standing, the best first. -/
def place : Standing → ℕ
  | whole => 0
  | front => 1
  | inside => 2

/-- The points for a standing. -/
def points : Standing → UInt32
  | whole => 1000
  | front => 500
  | inside => 300

theorem points_toNat_le (s : Standing) : s.points.toNat ≤ 1000 := by
  cases s <;> decide

/-- More than a hundred points lie between two standings. -/
theorem points_lt_points {s t : Standing} (h : s.place < t.place) :
    t.points.toNat + 100 < s.points.toNat := by
  revert h
  cases s <;> cases t <;> decide

end Standing

/-- How the keyword stands in a name that has it. -/
def standing (keyword name : List Char) : Standing :=
  if name = keyword then .whole else if keyword <+: name then .front else .inside

/-- A keyword gives points exactly for the names that have it. -/
theorem tier?_eq (keyword name : List Char) : tier? keyword name =
    if keyword <:+: name then some (standing keyword name).points else none := by
  unfold tier? standing
  by_cases whole : name = keyword
  · simp [whole, List.infix_rfl, Standing.points]
  · by_cases front : keyword <+: name
    · simp [whole, front, front.isInfix, Standing.points]
    · by_cases inside : keyword <:+: name
      · simp [whole, front, inside, Text.occursIn_iff, Standing.points]
      · simp [whole, front, inside, Text.occursIn_iff]

/-! ## The arithmetic of scores -/

theorem bonus_toNat_le (name : List Char) : (bonus name).toNat ≤ 100 := by
  rw [bonus, UInt32.toNat_div]
  exact Nat.div_le_self _ _

theorem points_add_bonus_toNat (s : Standing) (name : List Char) :
    (s.points + bonus name).toNat = s.points.toNat + (bonus name).toNat := by
  have := s.points_toNat_le
  have := bonus_toNat_le name
  rw [UInt32.toNat_add, Nat.mod_eq_of_lt (by omega)]

theorem share_toNat {name : List Char} (fits : name.length < 2 ^ 32 - 1) :
    (share name).toNat = name.length + 1 := by
  rw [share, UInt32.toNat_add, UInt32.toNat_ofNat', UInt32.toNat_one,
    Nat.mod_eq_of_lt (show name.length < 2 ^ 32 by omega), Nat.mod_eq_of_lt (by omega)]

theorem bonus_toNat {name : List Char} (fits : name.length < 2 ^ 32 - 1) :
    (bonus name).toNat = 100 / (name.length + 1) := by
  rw [bonus, UInt32.toNat_div, share_toNat fits]
  rfl

/-- The points for the length never make up for those of a better standing. -/
theorem score_lt_score {s t : Standing} (h : s.place < t.place) (m n : List Char) :
    t.points + bonus n < s.points + bonus m := by
  have := Standing.points_lt_points h
  have := bonus_toNat_le n
  rw [UInt32.lt_iff_toNat_lt, points_add_bonus_toNat, points_add_bonus_toNat]
  omega

/-! ## The ranking as a sorted list -/

variable {builtins other : List Builtin} {query : String} {k : List Char} {r : RankedBuiltin}

/-- The builtin with its score for a keyword that its name has. -/
def scored (keyword : List Char) (b : Builtin) : RankedBuiltin where
  score := (standing keyword b.compared).points + bonus b.compared
  builtin := b

/-- The builtins that a keyword matches with their scores, in the order of the list. -/
def found (keyword : List Char) (builtins : List Builtin) : List RankedBuiltin :=
  (builtins.filter fun b => keyword <:+: b.compared).map (scored keyword)

theorem filterMap_score?_eq_found (keyword : List Char) (builtins : List Builtin) :
    (builtins.filterMap fun b =>
      (score? keyword b).map fun score => ({ score, builtin := b } : RankedBuiltin)) =
      found keyword builtins := by
  rw [found, ← List.filterMap_eq_map, ← List.filterMap_eq_filter, List.filterMap_filterMap]
  refine List.filterMap_congr fun b _ => ?_
  by_cases has : keyword <:+: b.compared
  · simp [score?, tier?_eq, Option.guard, has, scored]
  · simp [score?, tier?_eq, Option.guard, has]

theorem rank_of_blank (blank : keyword query = []) (builtins : List Builtin) :
    rank builtins query = .usage := by
  rw [rank, blank]

theorem rank_eq (filled : keyword query ≠ []) (builtins : List Builtin) :
    rank builtins query =
      .results ((found (keyword query) builtins).mergeSort RankedBuiltin.le) := by
  rw [rank]
  split
  · next blank => exact absurd blank filled
  · rw [filterMap_score?_eq_found]

theorem eq_mergeSort_of_rank {ranked : List RankedBuiltin}
    (h : rank builtins query = .results ranked) :
    ranked = (found (keyword query) builtins).mergeSort RankedBuiltin.le := by
  by_cases filled : keyword query = []
  · rw [rank_of_blank filled] at h
    cases h
  · rw [rank_eq filled] at h
    cases h
    rfl

theorem map_builtin_found (keyword : List Char) (builtins : List Builtin) :
    (found keyword builtins).map (·.builtin) =
      builtins.filter fun b => keyword <:+: b.compared := by
  rw [found, List.map_map]
  exact List.map_id _

theorem score_of_mem_found (h : r ∈ found k builtins) :
    r.score = (standing k r.builtin.compared).points + bonus r.builtin.compared := by
  obtain ⟨b, -, rfl⟩ := List.mem_map.1 h
  rfl

end Builtin

namespace RankedBuiltin

/-- What decides the place of a ranked builtin: the score, the highest first, then the name. -/
def key (r : RankedBuiltin) : ℕᵒᵈ ×ₗ String :=
  toLex (OrderDual.toDual r.score.toNat, r.builtin.name)

theorem key_le_iff {a b : RankedBuiltin} : a.key ≤ b.key ↔
    b.score < a.score ∨ b.score = a.score ∧ a.builtin.name ≤ b.builtin.name := by
  rw [key, key, Prod.Lex.toLex_le_toLex, OrderDual.toDual_lt_toDual, EmbeddingLike.apply_eq_iff_eq,
    UInt32.toNat_inj, UInt32.lt_iff_toNat_lt, eq_comm]

theorem key_lt_iff {a b : RankedBuiltin} : a.key < b.key ↔
    b.score < a.score ∨ b.score = a.score ∧ a.builtin.name < b.builtin.name := by
  rw [key, key, Prod.Lex.toLex_lt_toLex, OrderDual.toDual_lt_toDual, EmbeddingLike.apply_eq_iff_eq,
    UInt32.toNat_inj, UInt32.lt_iff_toNat_lt, eq_comm]

theorem le_iff {a b : RankedBuiltin} : a.le b = true ↔ a.key ≤ b.key := by
  rw [key_le_iff, le]
  by_cases same : a.score = b.score
  · simp [same]
  · simp [same, Ne.symm same]

theorem pairwise_key (l : List RankedBuiltin) :
    (l.mergeSort le).Pairwise fun a b => a.key ≤ b.key := by
  have trans (a b c : RankedBuiltin) (hab : a.le b = true) (hbc : b.le c = true) : a.le c = true :=
    le_iff.2 ((le_iff.1 hab).trans (le_iff.1 hbc))
  have total (a b : RankedBuiltin) : (a.le b || b.le a) = true := by
    rw [Bool.or_eq_true, le_iff, le_iff]
    exact le_total _ _
  exact (List.pairwise_mergeSort trans total l).imp le_iff.1

/-- In a list sorted by keys what has the smaller key comes first. -/
theorem lt_of_key_lt {l : List RankedBuiltin} (sorted : l.Pairwise fun a b => a.key ≤ b.key)
    {i j : ℕ} {hi : i < l.length} {hj : j < l.length} (h : l[i].key < l[j].key) : i < j := by
  by_contra le
  rcases Nat.lt_or_eq_of_le (Nat.le_of_not_lt le) with lt | rfl
  · exact absurd (List.pairwise_iff_getElem.1 sorted j i hj hi lt) (not_le_of_gt h)
  · exact lt_irrefl _ h

theorem lt_iff_key_lt {l : List RankedBuiltin} (sorted : l.Pairwise fun a b => a.key ≤ b.key)
    {i j : ℕ} {hi : i < l.length} {hj : j < l.length} (ne : l[i].key ≠ l[j].key) :
    i < j ↔ l[i].key < l[j].key :=
  ⟨fun lt => lt_of_le_of_ne (List.pairwise_iff_getElem.1 sorted i j hi hj lt) ne,
    lt_of_key_lt sorted⟩

end RankedBuiltin

namespace Builtin

/-! ## What users are told -/

/-- The ranking of some builtins by a keyword as users are told of it. -/
structure Ranks (builtins : List Builtin) (keyword : List Char) (ranked : List RankedBuiltin) :
    Prop where
  /-- The ranked builtins are those whose names have the keyword, as often as they are listed. -/
  perm : (ranked.map (·.builtin)).Perm (builtins.filter fun b => keyword <:+: b.compared)
  /-- What has the better standing has the higher score and comes first. -/
  better : ∀ (i j : ℕ) (hi : i < ranked.length) (hj : j < ranked.length),
    (standing keyword ranked[i].builtin.compared).place <
        (standing keyword ranked[j].builtin.compared).place →
      ranked[j].score < ranked[i].score ∧ i < j
  /-- No score is below the next one, and equal scores are in the order of the names. -/
  sorted : ranked.Pairwise fun a b =>
    b.score < a.score ∨ b.score = a.score ∧ a.builtin.name ≤ b.builtin.name
  /-- The words for the score are the numbers: nothing is divided by zero, nothing overflows. -/
  exact : ∀ r ∈ ranked, r.builtin.compared.length < 2 ^ 32 - 1 →
    share r.builtin.compared ≠ 0 ∧
      (share r.builtin.compared).toNat = r.builtin.compared.length + 1 ∧
      r.score.toNat =
        (standing keyword r.builtin.compared).points.toNat + 100 / (r.builtin.compared.length + 1)

theorem ranks_mergeSort (builtins : List Builtin) (keyword : List Char) :
    Ranks builtins keyword ((found keyword builtins).mergeSort RankedBuiltin.le) where
  perm := by
    rw [← map_builtin_found]
    exact (List.mergeSort_perm _ _).map _
  better := by
    intro i j hi hj better
    have hri := score_of_mem_found (List.mem_mergeSort.1 (List.getElem_mem hi))
    have hrj := score_of_mem_found (List.mem_mergeSort.1 (List.getElem_mem hj))
    have higher : ((found keyword builtins).mergeSort RankedBuiltin.le)[j].score <
        ((found keyword builtins).mergeSort RankedBuiltin.le)[i].score := by
      rw [hri, hrj]
      exact score_lt_score better _ _
    exact ⟨higher, RankedBuiltin.lt_of_key_lt (RankedBuiltin.pairwise_key _)
      (RankedBuiltin.key_lt_iff.2 (.inl higher))⟩
  sorted := (RankedBuiltin.pairwise_key _).imp RankedBuiltin.key_le_iff.1
  exact := by
    intro r hr fits
    have exact := share_toNat fits
    refine ⟨fun zero => ?_, exact, ?_⟩
    · rw [zero] at exact
      exact Nat.succ_ne_zero _ exact.symm
    · rw [score_of_mem_found (List.mem_mergeSort.1 hr), points_add_bonus_toNat, bonus_toNat fits]

/-- Where names are distinct the order of the list does not count. -/
theorem mergeSort_found_eq (perm : builtins.Perm other) (distinct : (builtins.map (·.name)).Nodup) :
    (found k other).mergeSort RankedBuiltin.le = (found k builtins).mergeSort RankedBuiltin.le := by
  have same : (found k other).Perm (found k builtins) := (perm.symm.filter _).map _
  refine List.Perm.eq_of_pairwise (fun a b ha hb hab hba => ?_) (RankedBuiltin.pairwise_key _)
    (RankedBuiltin.pairwise_key _)
    (((List.mergeSort_perm _ _).trans same).trans (List.mergeSort_perm _ _).symm)
  -- equal keys are those of one builtin
  obtain ⟨c, hc, rfl⟩ := List.mem_map.1 (same.mem_iff.1 (List.mem_mergeSort.1 ha))
  obtain ⟨d, hd, rfl⟩ := List.mem_map.1 (List.mem_mergeSort.1 hb)
  have name : c.name = d.name := congrArg (fun k => (ofLex k).2) (le_antisymm hab hba)
  rw [List.inj_on_of_nodup_map distinct (List.mem_of_mem_filter hc) (List.mem_of_mem_filter hd)
    name]

/-- Three builtins with a keyword in all three ways, and one without it. -/
def overflowing : List Builtin :=
  [{ name := "@addWithOverflow" }, { name := "@sizeOf" }, { name := "@overflowPolicy" },
    { name := "@Overflow" }]

example : rank overflowing " @OverFlow" = .results [⟨1011, { name := "@Overflow" }⟩,
    ⟨506, { name := "@overflowPolicy" }⟩, ⟨306, { name := "@addWithOverflow" }⟩] := by
  cbv

end Builtin

end DocIndex
