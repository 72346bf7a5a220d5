import Mathlib.Algebra.Group.Nat.Defs
import DocIndex.Proofs.Snapshot.Ancestry

/-!
# Closed and tidy snapshots

A snapshot is `Closed` if every position in it is one of its declarations, a `Forest` if moreover
members and parents agree, and `Tidy` if its trees stand below the roots of its modules and plain
names tell siblings and modules apart. All of this can be decided, as every condition looks at the
declarations one by one (`forall_decl?_iff`). What a tidy snapshot says of parents and modules makes
it `Rooted`, which is enough for the paths of its declarations.
-/

namespace DocIndex.Snapshot

/-- The declarations that modules lead to exist, and each has a position that is not the absent
value. -/
structure ModulesClosed (s : Snapshot) : Prop where
  size_lt : s.decls.size < 2 ^ 32
  moduleRoot : ∀ m ∈ s.modules, s.Declares m.root

/-- The declarations that modules and files lead to exist, and each has a position that is not the
absent value. -/
structure RootsClosed (s : Snapshot) : Prop extends s.ModulesClosed where
  fileRoot : ∀ f ∈ s.files, s.Declares f.root

/-- Every position in the snapshot is one of its declarations. -/
structure Closed (s : Snapshot) : Prop extends s.RootsClosed where
  parent : ∀ d ∈ s.decls, ∀ p ∈ d.parent, s.Declares p
  aliasee : ∀ d ∈ s.decls, ∀ t ∈ d.aliasee, s.Declares t
  member : ∀ d ∈ s.decls, ∀ m ∈ d.members, s.Declares m
  owner : ∀ d ∈ s.decls, ∀ e ∈ d.errorSet, ∀ o ∈ e.owner, s.Declares o

/-- A closed snapshot whose declarations form trees: members and parents agree. -/
structure Forest (s : Snapshot) : Prop extends s.Closed where
  /-- No declaration is listed twice. -/
  nodup_members : ∀ d ∈ s.decls, d.members.Nodup
  /-- What a declaration lists has it as its parent. -/
  parent_of_member : ∀ p d, s.decl? p = some d → ∀ m ∈ d.members, s.parent? m = some p
  /-- Every declaration is listed by its parent. -/
  member_of_parent : ∀ i d, s.decl? i = some d → ∀ p ∈ d.parent, ∀ e ∈ s.decl? p, i ∈ e.members
  /-- No declaration stands around itself. -/
  acyclic : ∀ i, ¬ Relation.TransGen (Follows s.outer?) i i

/-- A forest below the roots of the modules, in which names tell modules and siblings apart. -/
structure Tidy (s : Snapshot) : Prop extends s.Forest where
  /-- Siblings have distinct names. -/
  sibling : ∀ d ∈ s.decls, ∀ m ∈ d.members, ∀ n ∈ d.members, s.nameOf m = s.nameOf n → m = n
  declName : ∀ d ∈ s.decls, Dotted.Plain d.name
  moduleName : ∀ m ∈ s.modules, Dotted.Plain m.name
  /-- No alias has members. -/
  redirect : ∀ d ∈ s.decls, d.category = .redirect → d.members = []
  /-- The declarations without parent are those that a module leads to. -/
  root_iff : ∀ i d, s.decl? i = some d → (d.parent = none ↔ ∃ m ∈ s.modules, m.root = i)
  /-- Each of them is named like one of the modules that lead to it. -/
  rootName : ∀ i d, s.decl? i = some d → d.parent = none →
    ∃ m ∈ s.modules, m.root = i ∧ m.name = d.name
  /-- Module names are distinct. -/
  nodup_modules : (s.modules.map (·.name)).Nodup

/-- Trees below the roots of the modules, with module names that are distinct and declared names
that no dot cuts. -/
structure Rooted (s : Snapshot) : Prop where
  size_lt : s.decls.size < 2 ^ 32
  parent : ∀ d ∈ s.decls, ∀ p ∈ d.parent, s.Declares p
  /-- No declaration stands around itself. -/
  acyclic : ∀ i, ¬ Relation.TransGen (Follows s.outer?) i i
  undotted : ∀ d ∈ s.decls, '.' ∉ d.name.toList
  /-- The declarations without parent are those that a module leads to. -/
  root_iff : ∀ i d, s.decl? i = some d → (d.parent = none ↔ ∃ m ∈ s.modules, m.root = i)
  /-- Each of them is named like one of the modules that lead to it. -/
  rootName : ∀ i d, s.decl? i = some d → d.parent = none →
    ∃ m ∈ s.modules, m.root = i ∧ m.name = d.name
  /-- Module names are distinct. -/
  nodup_modules : (s.modules.map (·.name)).Nodup

variable {s : Snapshot} {i p m : UInt32} {d : Decl}

theorem Tidy.rooted (tidy : s.Tidy) : s.Rooted where
  size_lt := tidy.size_lt
  parent := tidy.parent
  acyclic := tidy.acyclic
  undotted := fun d hd => (tidy.declName d hd).dot_not_mem
  root_iff := tidy.root_iff
  rootName := tidy.rootName
  nodup_modules := tidy.nodup_modules

/-! ## Deciding -/

instance : Decidable (s.Declares i) :=
  inferInstanceAs (Decidable (_ < _))

-- There are only finitely many words, but it is the listed ones that are to be looked at.
instance (priority := 2000) {l : List UInt32} {P : UInt32 → Prop} [DecidablePred P] :
    Decidable (∀ i ∈ l, P i) :=
  List.decidableBAll P l

instance (priority := 2000) {o : Option UInt32} {P : UInt32 → Prop} [DecidablePred P] :
    Decidable (∀ i ∈ o, P i) :=
  Option.decidableForallMem o

theorem forall_decl?_iff {P : UInt32 → Decl → Prop} :
    (∀ i d, s.decl? i = some d → P i d) ↔
      ∀ n < s.decls.size, ∀ d ∈ s.decl? (.ofNat n), P (.ofNat n) d := by
  constructor
  · intro h n _ d hd
    exact h _ d hd
  · intro h i d hd
    have := h i.toNat (declares_of_decl? hd) d
    rw [UInt32.ofNat_toNat] at this
    exact this hd

/-- Whether all declarations have the property at their positions. -/
def Each (s : Snapshot) (P : UInt32 → Decl → Prop) : Prop :=
  ∀ i d, s.decl? i = some d → P i d

instance {P : UInt32 → Decl → Prop} [∀ i d, Decidable (P i d)] : Decidable (s.Each P) :=
  decidable_of_iff _ forall_decl?_iff.symm

instance : Decidable s.ModulesClosed :=
  decidable_of_iff (s.decls.size < 2 ^ 32 ∧ ∀ m ∈ s.modules, s.Declares m.root)
    ⟨fun ⟨a, b⟩ => ⟨a, b⟩, fun ⟨a, b⟩ => ⟨a, b⟩⟩

instance : Decidable s.RootsClosed :=
  decidable_of_iff (s.ModulesClosed ∧ ∀ f ∈ s.files, s.Declares f.root)
    ⟨fun ⟨a, b⟩ => ⟨a, b⟩, fun ⟨a, b⟩ => ⟨a, b⟩⟩

instance : Decidable s.Closed :=
  decidable_of_iff (s.RootsClosed ∧ (∀ d ∈ s.decls, ∀ p ∈ d.parent, s.Declares p) ∧
      (∀ d ∈ s.decls, ∀ t ∈ d.aliasee, s.Declares t) ∧
      (∀ d ∈ s.decls, ∀ m ∈ d.members, s.Declares m) ∧
      ∀ d ∈ s.decls, ∀ e ∈ d.errorSet, ∀ o ∈ e.owner, s.Declares o)
    ⟨fun ⟨a, b, c, d, e⟩ => ⟨a, b, c, d, e⟩, fun ⟨a, b, c, d, e⟩ => ⟨a, b, c, d, e⟩⟩

instance : Decidable s.Forest :=
  decidable_of_iff (s.Closed ∧ (∀ d ∈ s.decls, d.members.Nodup) ∧
      (s.Each fun p d => ∀ m ∈ d.members, s.parent? m = some p) ∧
      (s.Each fun i d => ∀ p ∈ d.parent, ∀ e ∈ s.decl? p, i ∈ e.members) ∧
      s.Each fun i _ => (chain s.outer? (s.decls.size + 1) i).length ≤ s.decls.size)
    ⟨fun ⟨a, b, c, d, e⟩ => ⟨a, b, c, d, acyclic_iff.2 e⟩,
      fun ⟨a, b, c, d, e⟩ => ⟨a, b, c, d, acyclic_iff.1 e⟩⟩

instance : Decidable s.Tidy :=
  decidable_of_iff (s.Forest ∧
      (∀ d ∈ s.decls, ∀ m ∈ d.members, ∀ n ∈ d.members, s.nameOf m = s.nameOf n → m = n) ∧
      (∀ d ∈ s.decls, Dotted.Plain d.name) ∧ (∀ m ∈ s.modules, Dotted.Plain m.name) ∧
      (∀ d ∈ s.decls, d.category = .redirect → d.members = []) ∧
      (s.Each fun i d => d.parent = none ↔ ∃ m ∈ s.modules, m.root = i) ∧
      (s.Each fun i d => d.parent = none → ∃ m ∈ s.modules, m.root = i ∧ m.name = d.name) ∧
      (s.modules.map (·.name)).Nodup)
    ⟨fun ⟨a, b, c, d, e, f, g, h⟩ => ⟨a, b, c, d, e, f, g, h⟩,
      fun ⟨a, b, c, d, e, f, g, h⟩ => ⟨a, b, c, d, e, f, g, h⟩⟩

/-! ## A sample -/

/-- A tidy snapshot with two names for one root, and two aliases. -/
def sample : Snapshot where
  modules := [⟨"root", 0⟩, ⟨"std", 0⟩, ⟨"builtin", 5⟩]
  decls := #[
    { name := "root", category := .nameSpace, members := [1, 2, 3] },
    { name := "mem", parent := some 0, category := .nameSpace, members := [4] },
    { name := "List", parent := some 0, category := .redirect, aliasee := some 6 },
    { name := "array_list", parent := some 0, category := .nameSpace, members := [6] },
    { name := "eql", parent := some 1, category := .function },
    { name := "builtin", category := .nameSpace, members := [7] },
    { name := "ArrayList", parent := some 3, category := .container },
    { name := "mem", parent := some 5, category := .redirect, aliasee := some 1 }]
  files := [⟨"std/mem.zig", 1⟩]

theorem tidy_sample : sample.Tidy := by
  decide +kernel

end DocIndex.Snapshot
