import DocIndex.Proofs.Builtin.Ranking

/-!
# Short names in a ranking

Of two names in which the keyword stands alike the shorter one is ranked first exactly if it gains
more points or if its full name comes first in the alphabet (`shorter_first_iff`): a hundred points
are shared out in whole numbers, so names of twelve and of thirteen characters gain the same
(`rank_longer_first`). Up to eleven characters every further one costs a point at least
(`points_lt_of_short`).
-/

namespace DocIndex.Builtin

variable {builtins : List Builtin} {query : String} {ranked : List RankedBuiltin} {i j m n : ℕ}

theorem points_le_of_lt (h : m < n) : 100 / (n + 1) ≤ 100 / (m + 1) :=
  Nat.div_le_div_left (by omega) (Nat.succ_pos m)

/-- Names of at most eleven characters gain more points than any longer one. -/
theorem points_lt_of_short (h : m < n) (short : m ≤ 11) : 100 / (n + 1) < 100 / (m + 1) := by
  have next : ∀ m < 12, 100 < 100 / (m + 1) * (m + 2) := by decide
  rw [Nat.div_lt_iff_lt_mul (Nat.succ_pos n)]
  calc 100 < 100 / (m + 1) * (m + 2) := next m (by omega)
    _ ≤ 100 / (m + 1) * (n + 1) := Nat.mul_le_mul_left _ (by omega)

/-- Of two builtins in whose names the keyword stands alike the one with the shorter name comes
first exactly if it gains more points or if its full name comes first in the alphabet, so always if
it has at most eleven characters. -/
theorem shorter_first_iff (h : rank builtins query = .results ranked) (hi : i < ranked.length)
    (hj : j < ranked.length)
    (alike : standing (keyword query) ranked[i].builtin.compared =
      standing (keyword query) ranked[j].builtin.compared)
    (shorter : ranked[i].builtin.compared.length < ranked[j].builtin.compared.length)
    (fits : ranked[j].builtin.compared.length < 2 ^ 32 - 1) :
    (i < j ↔ 100 / (ranked[j].builtin.compared.length + 1) <
          100 / (ranked[i].builtin.compared.length + 1) ∨
        ranked[i].builtin.name < ranked[j].builtin.name) ∧
      (ranked[i].builtin.compared.length ≤ 11 → i < j) := by
  have ranks : Ranks builtins (keyword query) ranked := by
    rw [eq_mergeSort_of_rank h]
    exact ranks_mergeSort builtins _
  have sorted : ranked.Pairwise fun a b => a.key ≤ b.key :=
    ranks.sorted.imp RankedBuiltin.key_le_iff.2
  have names : ranked[i].builtin.name ≠ ranked[j].builtin.name := fun same =>
    shorter.ne (by rw [compared, compared, same])
  have keys : ranked[i].key ≠ ranked[j].key := fun same =>
    names (congrArg (fun k => (ofLex k).2) same)
  have score_i := (ranks.exact _ (List.getElem_mem hi) (shorter.trans fits)).2.2
  have score_j := (ranks.exact _ (List.getElem_mem hj) fits).2.2
  rw [alike] at score_i
  have first : i < j ↔ 100 / (ranked[j].builtin.compared.length + 1) <
        100 / (ranked[i].builtin.compared.length + 1) ∨
      ranked[i].builtin.name < ranked[j].builtin.name := by
    rw [RankedBuiltin.lt_iff_key_lt sorted keys, RankedBuiltin.key_lt_iff, UInt32.lt_iff_toNat_lt,
      ← UInt32.toNat_inj, score_i, score_j, Nat.add_lt_add_iff_left, Nat.add_left_cancel_iff]
    -- without more points for the shorter name there are as many for both
    rcases Nat.lt_or_eq_of_le (points_le_of_lt shorter) with more | same
    · simp [more]
    · simp [same]
  exact ⟨first, fun short => first.2 (.inl (points_lt_of_short shorter short))⟩

/-- A builtin with a name of twelve characters. -/
def floatMode : Builtin where
  name := "@setFloatMode"

/-- A builtin with a name of thirteen characters. -/
def alignStack : Builtin where
  name := "@setAlignStack"

theorem rank_settings :
    rank [alignStack, floatMode] "set" = .results [⟨507, alignStack⟩, ⟨507, floatMode⟩] := by
  have filled : keyword "set" ≠ [] := by decide +kernel
  have matching : found (keyword "set") [alignStack, floatMode] =
      [⟨507, alignStack⟩, ⟨507, floatMode⟩] := by decide +kernel
  rw [rank_eq filled, matching, List.mergeSort_of_pairwise (by decide +kernel)]

theorem length_floatMode : floatMode.compared.length = 12 := by
  decide +kernel

theorem length_alignStack : alignStack.compared.length = 13 := by
  decide +kernel

theorem length_floatMode_lt : floatMode.compared.length < alignStack.compared.length := by
  rw [length_floatMode, length_alignStack]
  decide

theorem standing_settings :
    standing (keyword "set") floatMode.compared = standing (keyword "set") alignStack.compared := by
  decide +kernel

theorem shorter_first_iff_settings :
    rank [alignStack, floatMode] "set" = .results [⟨507, alignStack⟩, ⟨507, floatMode⟩] ∧
      standing (keyword "set") floatMode.compared =
        standing (keyword "set") alignStack.compared ∧
      floatMode.compared.length < alignStack.compared.length ∧
      alignStack.compared.length < 2 ^ 32 - 1 ∧
      (1 < 0 ↔ 100 / (alignStack.compared.length + 1) < 100 / (floatMode.compared.length + 1) ∨
        floatMode.name < alignStack.name) := by
  have fits : alignStack.compared.length < 2 ^ 32 - 1 := by
    rw [length_alignStack]
    decide
  have law := shorter_first_iff (i := 1) (j := 0) rank_settings (by decide) (by decide)
  simp only [List.getElem_cons_zero, List.getElem_cons_succ] at law
  exact ⟨rank_settings, standing_settings, length_floatMode_lt, fits,
    (law standing_settings length_floatMode_lt fits).1⟩

/-- A shorter name is not always ranked before a longer one in which the keyword stands alike. -/
theorem rank_longer_first :
    ¬ ∀ (builtins : List Builtin) (query : String) (ranked : List RankedBuiltin),
      rank builtins query = .results ranked →
        ∀ (i j : ℕ) (hi : i < ranked.length) (hj : j < ranked.length),
          standing (keyword query) ranked[i].builtin.compared =
              standing (keyword query) ranked[j].builtin.compared →
            ranked[i].builtin.compared.length < ranked[j].builtin.compared.length → i < j := by
  intro law
  have first := law _ _ _ rank_settings 1 0 (by decide) (by decide)
  simp only [List.getElem_cons_zero, List.getElem_cons_succ] at first
  exact absurd (first standing_settings length_floatMode_lt) (by decide)

end DocIndex.Builtin
