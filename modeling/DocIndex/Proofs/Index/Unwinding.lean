import DocIndex.Proofs.Index.Recorded
import DocIndex.Proofs.Snapshot.Aliases

/-!
# Unwinding over a snapshot

Over a snapshot, classifying a declaration answers from the snapshot alone and leaves the same
machine behind, but for the target in reach (`classify_run`). So does unwinding, and it tells of a
chain of aliases exactly what there is to tell (`unwind_eq_iff_leads`): the declarations that it has
visited are always the chain up to where it is, so it finds the one place where the chain stops.
-/

namespace DocIndex

/-- What an index says of a declaration: its category, and the target of an alias. -/
def Snapshot.classified (s : Snapshot) (i : UInt32) : Except Fault (Category × Option Handle) :=
  match s.decl? i with
  | none => .error (.unknownDecl i.toUInt64)
  | some d => .ok (d.category, (s.target? i).map Handle.mk)

theorem Category.ofCode?_word (c : Category) : ofCode? (UInt64.ofNat c.code).toNat = some c := by
  cases c <;> rfl

namespace Index

open Snapshot Table

/-- The target in reach is read once. -/
theorem aliasee_run (word : UInt64) (m : Machine Table) :
    callHandle? .aliasee [] (retarget (some word) m) = (Handle.ofWord? word, retarget none m) := by
  have call_run : call .aliasee [] (retarget (some word) m) = (.ok word, retarget none m) := rfl
  rw [callHandle?, run_bind, call_run]
  exact ofExcept_run ..

/-- Classifying a declaration changes nothing but the target in reach. -/
theorem classify_run (i : UInt32) (m : Machine Table) :
    ∃ target, classify ⟨i⟩ m = (m.state.snapshot.classified i, retarget target m) := by
  rw [classify, run_bind]
  cases hd : m.state.snapshot.decl? i with
  | none =>
    have call_run : call .categorize [(⟨i⟩ : Handle).word] m =
        (.error (.unknownDecl i.toUInt64), m) := by
      show Table.categorize i.toUInt64 m = _
      rw [Table.categorize, declAt_eq_error hd]
    refine ⟨m.state.target, ?_⟩
    rw [call_run, classified, hd]
    rfl
  | some d =>
    have call_run : call .categorize [(⟨i⟩ : Handle).word] m =
        (.ok (UInt64.ofNat d.category.code),
          retarget (if d.category = .redirect then some ((d.aliasee.map (·.toUInt64)).getD absent)
            else none) m) := by
      show Table.categorize i.toUInt64 m = _
      rw [Table.categorize, declAt_eq hd]
      rfl
    refine ⟨none, ?_⟩
    rw [call_run, classified, hd, target?, aliasee?_eq hd]
    simp only [Category.ofCode?_word]
    by_cases redirects : d.category = .redirect
    · simp only [redirects, if_true]
      rw [run_bind, aliasee_run, ofWord?_ofDecl]
      rfl
    · simp only [if_neg redirects]
      cases hc : d.category <;> rfl

/-! ## Chains -/

variable {s : Snapshot} {i : UInt32}

/-- Unwinding goes on behind the distinct declarations that it has visited, up to where the chain
stops. -/
theorem unwindFrom_run {n : Nat} {j : UInt32} {visited : List Handle} (m : Machine Table)
    (hs : m.state.snapshot = s) (reached : link s.target? n i = some j)
    (distinct : (chain s.target? n i).Nodup)
    (hv : ∀ k, (⟨k⟩ : Handle) ∈ visited ↔ k ∈ chain s.target? n i) :
    ∃ n' j' target, Stops s.target? n' i j' ∧
      unwindFrom visited ⟨j⟩ m = (s.outcome j', retarget target m) := by
  rw [unwindFrom]
  split
  · next again =>
    have back := (hv j).1 again
    have goes : s.target? j ≠ none := fun ended => not_mem_chain_of_link reached ended back
    refine ⟨n, j, m.state.target, ⟨reached, distinct, .inr back⟩, ?_⟩
    rw [outcome, if_neg goes]
    rfl
  · next fresh =>
    have new : j ∉ chain s.target? n i := fun back => fresh ((hv j).2 back)
    obtain ⟨target, classify_run⟩ := classify_run j m
    rw [run_bind, classify_run, classified, hs]
    cases ht : s.target? j with
    | some t =>
      obtain ⟨d, hd, redirects⟩ := isAlias_of_aliasee? (target?_eq_some_iff.1 ht).1
      have reached' : link s.target? (n + 1) i = some t := by
        rw [link_succ, reached, Option.bind_some, ht]
      have longer := chain_snoc reached
      simp only [hd, redirects, Option.map_some]
      have distinct' : (chain s.target? (n + 1) i).Nodup := by
        rw [longer]
        exact List.nodup_append'.2 ⟨distinct, List.nodup_singleton j, List.disjoint_singleton.2 new⟩
      have hv' : ∀ k, (⟨k⟩ : Handle) ∈ ⟨j⟩ :: visited ↔ k ∈ chain s.target? (n + 1) i := by
        intro k
        simp [longer, hv, or_comm]
      exact unwindFrom_run (retarget target m) hs reached' distinct' hv'
    | none =>
      refine ⟨n, j, target, ⟨reached, distinct, .inl ht⟩, ?_⟩
      rw [outcome, if_pos ht, ending]
      cases hd : s.decl? j with
      | none => rfl
      | some d => cases hc : d.category <;> simp only [hc] <;> rfl
termination_by unvisited visited
decreasing_by exact unvisited_cons_lt ‹_›

theorem exists_stops_unwind (m : Machine Table) (i : UInt32) :
    ∃ n j target, Stops m.state.snapshot.target? n i j ∧
      unwind ⟨i⟩ m = (m.state.snapshot.outcome j, retarget target m) := by
  have reached : link m.state.snapshot.target? 0 i = some i := rfl
  refine unwindFrom_run m rfl reached List.nodup_nil fun k => ?_
  exact iff_of_false List.not_mem_nil List.not_mem_nil

/-- Unwinding changes nothing but the target in reach. -/
theorem unwind_run (m : Machine Table) (i : UInt32) :
    ∃ r target, m.state.snapshot.Leads i r ∧ unwind ⟨i⟩ m = (r, retarget target m) := by
  obtain ⟨n, j, target, stops, run⟩ := exists_stops_unwind m i
  exact ⟨_, target, leads_outcome stops, run⟩

theorem unwind_eq_iff {m : Machine Table} {r : Except Fault Unwound} :
    (unwind ⟨i⟩ m).1 = r ↔ m.state.snapshot.Leads i r := by
  obtain ⟨n, j, target, stops, run⟩ := exists_stops_unwind m i
  rw [run, leads_iff stops]
  exact eq_comm

/-- Over a snapshot, unwinding tells exactly where the chain of aliases leads: to a declaration that
is no alias, to an alias without target, out of the table, or back to itself. One of these is always
the case and no two are. No declaration is asked for its category twice. -/
theorem unwind_eq_iff_leads (m : Machine Table) (i : UInt32) :
    (∀ r, (unwind ⟨i⟩ m).1 = r ↔ m.state.snapshot.Leads i r) ∧
      (∃! r, m.state.snapshot.Leads i r) ∧
      (unwind ⟨i⟩ (Recorded.start m)).1 = (unwind ⟨i⟩ m).1 ∧
      (Recorded.asked .categorize (unwind ⟨i⟩ (Recorded.start m)).2).Nodup := by
  refine ⟨fun r => unwind_eq_iff, ⟨(unwind ⟨i⟩ m).1, unwind_eq_iff.1 rfl, fun r leads => ?_⟩,
    (mirrors_unwindFrom [] ⟨i⟩ rfl).1, nodup_asked_unwind ⟨i⟩ m⟩
  exact (unwind_eq_iff.2 leads).symm

end Index

end DocIndex
