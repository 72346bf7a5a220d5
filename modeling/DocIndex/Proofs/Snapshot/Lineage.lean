import DocIndex.Proofs.Snapshot.Ancestry

/-!
# Climbing to the outermost declaration

A fully qualified name is collected on the way up the parents. `Climbs` is that way as it is walked:
it goes on until there is no parent in the table, or more names have been collected than there are
declarations. So it always ends, and with the names of `Snapshot.names` (`climbs_iff`). The limit
cuts no name: it is reached exactly where the parents run in a circle (`circular_iff`), and
everywhere else the names are those of the whole `Lineage` (`fqn_uncut`).
-/

namespace DocIndex.Snapshot

/-! ## The way up -/

/-- Whether the way up from a declaration, with the names that were collected before, ends with the
names, the outermost first. -/
inductive Climbs (s : Snapshot) : (collected : List String) → Option UInt32 →
    (names : List String) → Prop
  /-- There is no parent. -/
  | top {collected : List String} : Climbs s collected none collected
  /-- The parent is not in the table. -/
  | missing {collected : List String} {i : UInt32} : s.decl? i = none →
    Climbs s collected (some i) collected
  /-- More names are collected than there are declarations. -/
  | full {collected : List String} {i : UInt32} {d : Decl} : s.decl? i = some d →
    s.decls.size < (d.name :: collected).length → Climbs s collected (some i) (d.name :: collected)
  /-- The way goes on with the parent. -/
  | up {collected names : List String} {i : UInt32} {d : Decl} : s.decl? i = some d →
    (d.name :: collected).length ≤ s.decls.size → Climbs s (d.name :: collected) d.parent names →
    Climbs s collected (some i) names

/-- Whether the declarations are those around a declaration and itself, the outermost first. -/
inductive Lineage (s : Snapshot) : UInt32 → List UInt32 → Prop
  | outermost {i : UInt32} : s.Declares i → s.outer? i = none → Lineage s i [i]
  | inside {i p : UInt32} {l : List UInt32} : s.outer? i = some p → Lineage s p l →
    Lineage s i (l ++ [i])

/-- Whether the way up from a declaration comes to one that stands around itself. -/
def Circular (s : Snapshot) (i : UInt32) : Prop :=
  ∃ j, Relation.ReflTransGen (Follows s.outer?) j i ∧ Relation.TransGen (Follows s.outer?) j j

variable {s : Snapshot} {i : UInt32} {collected names : List String} {l : List UInt32}

theorem climbs_ancestry {most : Nat} (room : collected.length + most = s.decls.size) (i : UInt32) :
    s.Climbs collected (some i) ((s.ancestry (most + 1) i).reverse ++ collected) := by
  induction most generalizing collected i with
  | zero =>
    cases hd : s.decl? i with
    | none =>
      rw [ancestry_eq_nil hd]
      exact .missing hd
    | some d =>
      have only : s.ancestry 1 i = [d.name] := by
        rw [ancestry_succ hd]
        cases d.parent <;> rfl
      rw [only]
      refine .full hd ?_
      rw [List.length_cons]
      omega
  | succ most ih =>
    cases hd : s.decl? i with
    | none =>
      rw [ancestry_eq_nil hd]
      exact .missing hd
    | some d =>
      have room' : (d.name :: collected).length + most = s.decls.size := by
        rw [List.length_cons]
        omega
      refine .up hd (by omega) ?_
      rw [ancestry_succ hd, List.reverse_cons, List.append_assoc]
      cases d.parent with
      | none => exact .top
      | some p => exact ih room' p

theorem Climbs.unique {o : Option UInt32} {names' : List String} (h : s.Climbs collected o names)
    (h' : s.Climbs collected o names') : names = names' := by
  induction h with
  | top =>
    cases h'
    rfl
  | missing hd =>
    cases h' with
    | missing => rfl
    | full hd' => cases hd.symm.trans hd'
    | up hd' => cases hd.symm.trans hd'
  | full hd many =>
    cases h' with
    | missing hd' => cases hd.symm.trans hd'
    | full hd' =>
      cases hd.symm.trans hd'
      rfl
    | up hd' few =>
      cases hd.symm.trans hd'
      omega
  | up hd few _ ih =>
    cases h' with
    | missing hd' => cases hd.symm.trans hd'
    | full hd' many =>
      cases hd.symm.trans hd'
      omega
    | up hd' _ rest =>
      cases hd.symm.trans hd'
      exact ih rest

/-- The way up always ends, and with the names that a fully qualified name consists of. -/
theorem climbs_iff : s.Climbs [] (some i) names ↔ names = s.names i := by
  have room : ([] : List String).length + s.decls.size = s.decls.size := Nat.zero_add _
  have walked := climbs_ancestry room i
  rw [List.append_nil] at walked
  exact ⟨fun h => h.unique walked, fun h => h ▸ walked⟩

/-! ## Circles -/

theorem not_circular_iff : ¬ s.Circular i ↔ Acc (Follows s.outer?) i := by
  constructor
  · intro straight
    have : Finite UInt32 := Finite.of_injective UInt32.toFin fun _ _ => UInt32.toFin_inj.1
    exact acc_of_forall_not_transGen fun j above loop => straight ⟨j, above, loop⟩
  · rintro acc ⟨j, above, loop⟩
    refine not_transGen_self_of_acc ?_ loop
    clear loop
    induction above using Relation.ReflTransGen.head_induction_on with
    | refl => exact acc
    | head step _ ih => exact ih.inv step

theorem length_names (hi : s.Declares i) :
    (s.names i).length = (chain s.outer? (s.decls.size + 1) i).length := by
  rw [names, List.length_reverse, ancestry_eq_map_chain hi, List.length_map]

/-- As many names as the limit allows are collected exactly where the parents run in a circle. -/
theorem circular_iff (hi : s.Declares i) :
    s.Circular i ↔ (s.names i).length = s.decls.size + 1 := by
  have within := length_chain_le_most s.outer? (s.decls.size + 1) i
  rw [length_names hi]
  constructor
  · intro circular
    by_contra short
    have acc := acc_of_length_chain_lt (Nat.lt_of_le_of_ne within short)
    exact not_circular_iff.2 acc circular
  · intro long
    by_contra straight
    have fits := length_chain_outer?_le (not_circular_iff.1 straight) hi (s.decls.size + 1)
    omega

/-! ## Lineages -/

theorem Lineage.acc (lineage : s.Lineage i l) : Acc (Follows s.outer?) i := by
  induction lineage with
  | outermost _ ho =>
    refine ⟨_, fun p (hp : s.outer? _ = some p) => ?_⟩
    cases ho.symm.trans hp
  | inside ho _ ih =>
    refine ⟨_, fun p (hp : s.outer? _ = some p) => ?_⟩
    cases ho.symm.trans hp
    exact ih

theorem exists_lineage (acc : Acc (Follows s.outer?) i) (hi : s.Declares i) :
    ∃ l, s.Lineage i l := by
  induction acc with
  | intro i _ ih =>
    cases ho : s.outer? i with
    | none => exact ⟨[i], .outermost hi ho⟩
    | some p =>
      obtain ⟨l, lineage⟩ := ih p ho (declares_of_outer? ho)
      exact ⟨l ++ [i], .inside ho lineage⟩

theorem Lineage.names_eq (lineage : s.Lineage i l) : s.names i = l.map s.nameOf := by
  induction lineage with
  | outermost hi ho => exact names_of_outer?_eq_none hi ho
  | inside ho lineage ih =>
    rw [names_of_outer? (lineage.inside ho).acc ho, ih, List.map_append, List.map_singleton]

/-- The way up from a declaration always ends with the names of its fully qualified name, and at
most one more than there are declarations; that many only where the parents run in a circle.
Everywhere else the fully qualified name has all names from the outermost declaration in the table
down to its own, and is that of the parent, if the table has it, with its own name behind. -/
theorem fqn_uncut (hi : s.Declares i) :
    (∀ names, s.Climbs [] (some i) names ↔ names = s.names i) ∧
    s.fqn i = Dotted.join (s.names i) ∧
    (s.names i).length ≤ s.decls.size + 1 ∧
    (s.Circular i ↔ (s.names i).length = s.decls.size + 1) ∧
    (¬ s.Circular i ↔ ∃ l, s.Lineage i l) ∧
    (∀ l, s.Lineage i l → s.fqn i = Dotted.join (l.map s.nameOf)) ∧
    (¬ s.Circular i → ∀ p, s.outer? i = some p → s.fqn i = s.fqn p ++ "." ++ s.nameOf i) := by
  refine ⟨fun names => climbs_iff, fqn_eq_join_names s i, ?_, circular_iff hi, ?_,
    fun l lineage => ?_, fun straight p ho => fqn_of_outer? (not_circular_iff.1 straight) ho⟩
  · rw [length_names hi]
    exact length_chain_le_most s.outer? _ i
  · rw [not_circular_iff]
    exact ⟨fun acc => exists_lineage acc hi, fun ⟨_, lineage⟩ => lineage.acc⟩
  · rw [fqn_eq_join_names, lineage.names_eq]

/-- All declarations of the table, one inside the other. -/
def deep : Snapshot where
  decls := #[
    { name := "root", category := .nameSpace, members := [1] },
    { name := "os", parent := some 0, category := .nameSpace, members := [2] },
    { name := "linux", parent := some 1, category := .nameSpace }]

/-- The way up from the innermost declaration comes to all of them, and no name is cut. -/
theorem fqn_uncut_deep : deep.Declares 2 ∧ ¬ deep.Circular 2 ∧ deep.Lineage 2 [0, 1, 2] ∧
    deep.Climbs [] (some 2) ["root", "os", "linux"] ∧ deep.fqn 2 = "root.os.linux" ∧
    deep.outer? 2 = some 1 ∧ deep.fqn 2 = deep.fqn 1 ++ "." ++ "linux" := by
  have declared : deep.Declares 2 := declares_of_decl? rfl
  have inside : deep.outer? 2 = some 1 := by decide
  have lineage : deep.Lineage 2 [0, 1, 2] :=
    .inside (l := [0, 1]) inside
      (.inside (l := [0]) (by decide) (.outermost (declares_of_decl? rfl) (by decide)))
  obtain ⟨climbs, -, -, -, straight_iff, whole, parent⟩ := fqn_uncut declared
  have straight : ¬ deep.Circular 2 := straight_iff.2 ⟨_, lineage⟩
  exact ⟨declared, straight, lineage, (climbs _).2 (by decide), (whole _ lineage).trans (by decide),
    inside, parent straight 1 inside⟩

end DocIndex.Snapshot
