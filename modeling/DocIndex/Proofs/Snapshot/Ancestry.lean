import Mathlib.Data.Fintype.EquivFin
import DocIndex.Proofs.Chain
import DocIndex.Proofs.Text.Dotted
import DocIndex.Snapshot.Path

/-!
# Declarations and those around them

Where the parents of a declaration do not run in a circle, its fully qualified name is never cut:
it is its own name behind that of the declaration around it (`fqn_of_outer?`), and its own name
alone where none is. The names on the way are collected up to one more than there are declarations,
and a chain without repetition is shorter than that.
-/

namespace DocIndex.Snapshot

variable (s : Snapshot)

/-- Whether the position is one of the table. -/
def Declares (i : UInt32) : Prop :=
  i.toNat < s.decls.size

/-- The declared name at a position. -/
def nameOf (i : UInt32) : String :=
  ((s.decl? i).map (·.name)).getD ""

/-- The parent that a declaration names. -/
def parent? (i : UInt32) : Option UInt32 :=
  (s.decl? i).bind (·.parent)

/-- The declaration around a declaration: its parent, if the table has it. -/
def outer? (i : UInt32) : Option UInt32 :=
  (s.parent? i).filter fun p => (s.decl? p).isSome

/-- The names from the outermost declaration around a declaration down to its own. -/
def names (i : UInt32) : List String :=
  (s.ancestry (s.decls.size + 1) i).reverse

variable {s} {i p : UInt32} {d : Decl}

theorem fqn_eq_join_names (s : Snapshot) (i : UInt32) : s.fqn i = Dotted.join (s.names i) :=
  rfl

theorem exists_decl?_iff : (∃ d, s.decl? i = some d) ↔ s.Declares i :=
  ⟨fun ⟨_, h⟩ => (Array.getElem?_eq_some_iff.1 h).1, fun h => ⟨_, Array.getElem?_eq_getElem h⟩⟩

theorem declares_of_decl? (h : s.decl? i = some d) : s.Declares i :=
  exists_decl?_iff.1 ⟨d, h⟩

theorem isSome_decl?_iff : (s.decl? i).isSome = true ↔ s.Declares i := by
  rw [Option.isSome_iff_exists, exists_decl?_iff]

theorem mem_of_decl? (h : s.decl? i = some d) : d ∈ s.decls :=
  Array.mem_of_getElem? h

theorem nameOf_eq (h : s.decl? i = some d) : s.nameOf i = d.name := by
  rw [nameOf, h]; rfl

theorem parent?_eq (h : s.decl? i = some d) : s.parent? i = d.parent := by
  rw [parent?, h]; rfl

theorem declares_of_parent? (h : s.parent? i = some p) : s.Declares i := by
  obtain ⟨d, hd, -⟩ := Option.bind_eq_some_iff.1 h
  exact declares_of_decl? hd

theorem outer?_eq_some_iff : s.outer? i = some p ↔ s.parent? i = some p ∧ s.Declares p := by
  rw [outer?, Option.filter_eq_some_iff, isSome_decl?_iff]

theorem declares_of_outer? (h : s.outer? i = some p) : s.Declares p :=
  (outer?_eq_some_iff.1 h).2

/-! ## The names on the way -/

theorem ancestry_eq_nil (h : s.decl? i = none) (most : Nat) : s.ancestry most i = [] := by
  cases most with
  | zero => rfl
  | succ most => rw [ancestry, h]

theorem ancestry_succ (h : s.decl? i = some d) (most : Nat) :
    s.ancestry (most + 1) i = d.name :: d.parent.elim [] (s.ancestry most) := by
  rw [ancestry, h]
  cases hp : d.parent <;> simp [hp]

theorem ancestry_eq_map_chain (hi : s.Declares i) (most : Nat) :
    s.ancestry most i = (chain s.outer? most i).map s.nameOf := by
  induction most generalizing i with
  | zero => rfl
  | succ most ih =>
    obtain ⟨d, hd⟩ := exists_decl?_iff.2 hi
    have ho : s.outer? i = d.parent.filter fun p => (s.decl? p).isSome := by
      rw [outer?, parent?_eq hd]
    rw [ancestry_succ hd, chain, List.map_cons, nameOf_eq hd, ho]
    cases d.parent with
    | none => rfl
    | some p =>
      cases hp : s.decl? p with
      | none => simp [Option.filter, hp, ancestry_eq_nil hp]
      | some e => simp [Option.filter, hp, ih (declares_of_decl? hp)]

theorem declares_of_mem_chain (hi : s.Declares i) {most : Nat} {j : UInt32}
    (h : j ∈ chain s.outer? most i) : s.Declares j := by
  rcases Relation.ReflTransGen.cases_head (mem_chain h) with rfl | ⟨k, hk, -⟩
  · exact hi
  · exact declares_of_outer? hk

/-- A chain of declarations that does not run in a circle has no more of them than the table. -/
theorem length_chain_le_size {next : UInt32 → Option UInt32} {most : Nat}
    (acyclic : Acc (Follows next) i) (within : ∀ j ∈ chain next most i, s.Declares j) :
    (chain next most i).length ≤ s.decls.size := by
  have listed : ∀ j ∈ chain next most i, j ∈ (List.range s.decls.size).map UInt32.ofNat := by
    intro j hj
    rw [List.mem_map]
    exact ⟨j.toNat, List.mem_range.2 (within j hj), UInt32.ofNat_toNat⟩
  simpa using length_chain_le acyclic listed

/-- No more declarations stand around a declaration, with itself, than the table has. -/
theorem length_chain_outer?_le (acyclic : Acc (Follows s.outer?) i) (hi : s.Declares i)
    (most : Nat) : (chain s.outer? most i).length ≤ s.decls.size :=
  length_chain_le_size acyclic fun _ hj => declares_of_mem_chain hi hj

theorem names_of_outer? (acyclic : Acc (Follows s.outer?) i) (ho : s.outer? i = some p) :
    s.names i = s.names p ++ [s.nameOf i] := by
  have hi : s.Declares i := declares_of_parent? (outer?_eq_some_iff.1 ho).1
  have hp : s.Declares p := declares_of_outer? ho
  -- The chain of `i` fits the table, so that of `p` ends before the limit.
  have ended : (chain s.outer? s.decls.size p).length < s.decls.size := by
    have := length_chain_outer?_le acyclic hi (s.decls.size + 1)
    rw [chain, ho, List.length_cons] at this
    exact this
  rw [names, names, ancestry_eq_map_chain hi, ancestry_eq_map_chain hp, chain_succ ended, chain, ho]
  simp

theorem names_of_outer?_eq_none (hi : s.Declares i) (ho : s.outer? i = none) :
    s.names i = [s.nameOf i] := by
  rw [names, ancestry_eq_map_chain hi, chain, ho]
  rfl

theorem names_ne_nil (hi : s.Declares i) : s.names i ≠ [] := by
  rw [names, ancestry_eq_map_chain hi, chain]
  simp

theorem acc_outer? (acyclic : ∀ i, ¬ Relation.TransGen (Follows s.outer?) i i) (i : UInt32) :
    Acc (Follows s.outer?) i := by
  have : Finite UInt32 := Finite.of_injective UInt32.toFin fun _ _ => UInt32.toFin_inj.1
  exact (wellFounded_follows acyclic).apply i

/-- No declaration stands around itself exactly if every chain of parents fits the table. -/
theorem acyclic_iff : (∀ i, ¬ Relation.TransGen (Follows s.outer?) i i) ↔
    ∀ i d, s.decl? i = some d → (chain s.outer? (s.decls.size + 1) i).length ≤ s.decls.size := by
  constructor
  · intro acyclic i d hd
    exact length_chain_outer?_le (acc_outer? acyclic i) (declares_of_decl? hd) _
  · intro short i loop
    obtain ⟨p, -, hp⟩ := Relation.TransGen.tail'_iff.1 loop
    obtain ⟨d, hd, -⟩ := Option.bind_eq_some_iff.1 (outer?_eq_some_iff.1 hp).1
    have ended := Nat.lt_succ_of_le (short i d hd)
    exact not_transGen_self_of_acc (acc_of_length_chain_lt ended) loop

/-! ## Fully qualified names -/

theorem fqn_of_outer? (acyclic : Acc (Follows s.outer?) i) (ho : s.outer? i = some p) :
    s.fqn i = s.fqn p ++ "." ++ s.nameOf i := by
  rw [fqn_eq_join_names, fqn_eq_join_names, names_of_outer? acyclic ho,
    Dotted.join_append (names_ne_nil (declares_of_outer? ho)) (List.cons_ne_nil _ _),
    Dotted.join_singleton]

end DocIndex.Snapshot
