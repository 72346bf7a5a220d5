import DocIndex.Index

/-!
# Unwinding aliases

An alias redirects to another declaration, which may be an alias again. `unwind` follows the chain
to the declaration it ends at, and tells chains that end at an alias without target from those that
come back to themselves. It never asks about a declaration twice, so it ends for every engine.
-/

namespace DocIndex

/-- Where a chain of aliases leads. -/
inductive Unwound where
  /-- To a declaration that is no alias. -/
  | concrete (handle : Handle) (category : Category)
  /-- To an alias that has no target. -/
  | dangling (handle : Handle)
  /-- Back to a declaration that the chain has passed before. -/
  | cycle (handle : Handle)
  deriving DecidableEq, Repr

/-- The declaration at the end of the chain and its category, if it leads to one. -/
def Unwound.concrete? : Unwound → Option (Handle × Category)
  | concrete handle category => some (handle, category)
  | dangling _ | cycle _ => none

namespace Index

variable {σ : Type} [Engine σ]

/-- How many handles are not among those that were visited. -/
def unvisited (visited : List Handle) : Nat :=
  (List.range UInt32.size).countP fun n => !visited.contains ⟨UInt32.ofNat n⟩

theorem unvisited_cons_lt {visited : List Handle} {h : Handle} (fresh : h ∉ visited) :
    unvisited (h :: visited) < unvisited visited := by
  unfold unvisited
  rw [List.countP_eq_length_filter, List.countP_eq_length_filter]
  have hsub : (List.range UInt32.size).filter (fun n => !(h :: visited).contains ⟨UInt32.ofNat n⟩) =
      ((List.range UInt32.size).filter fun n => !visited.contains ⟨UInt32.ofNat n⟩).filter
        fun n => (⟨UInt32.ofNat n⟩ : Handle) ≠ h := by
    rw [List.filter_filter]
    congr 1
    funext n
    by_cases hn : (⟨UInt32.ofNat n⟩ : Handle) = h <;> simp [hn]
  rw [hsub]
  refine List.length_filter_lt_length_iff_exists.2 ⟨h.index.toNat, ?_, by simp⟩
  rw [List.mem_filter]
  exact ⟨List.mem_range.2 h.index.toNat_lt, by simpa using fresh⟩

/-- Follows the chain from `current`, which was reached through the visited declarations. -/
def unwindFrom (visited : List Handle) (current : Handle) : Index σ Unwound :=
  if _fresh : current ∈ visited then return .cycle current
  else do
    match ← classify current with
    | (.redirect, some target) => unwindFrom (current :: visited) target
    | (.redirect, none) => return .dangling current
    | (category, _) => return .concrete current category
termination_by unvisited visited
decreasing_by exact unvisited_cons_lt _fresh

/-- Follows the chain of aliases from a declaration. -/
def unwind (h : Handle) : Index σ Unwound :=
  unwindFrom [] h

end Index

end DocIndex
