import DocIndex.Proofs.Index.Answers

/-!
# Names and declarations

In a tidy snapshot names and declarations are inverse. The spellings of a declaration are the names
of the modules that lead to its root, each with the same names behind it
(`Rooted.mem_spellings_iff`), which are its paths under them (`Rooted.mem_spellings_iff_pathUnder`),
and a walk that looks for members in no alias passes just the names of the declaration at its end
(`Tidy.names_of_walk`), so its path is one of them.
-/

namespace DocIndex.Snapshot

/-- The declarations in which the walk from `i` along some names looks for members. -/
def scopesFrom (s : Snapshot) : (i : UInt32) → List String → List UInt32
  | _, [] => []
  | i, name :: rest => i :: ((s.member? i name).map fun m => s.scopesFrom m rest).getD []

/-- The declarations in which the walk along a path looks for members. -/
def scopes (s : Snapshot) (path : String) : List UInt32 :=
  match Dotted.segments path with
  | [] => []
  | first :: rest => ((s.module? first).map fun m => s.scopesFrom m.root rest).getD []

/-- The paths of a declaration under the name of a module: the name itself leads to the root, and
each further name to a member of what the path in front of it leads to. -/
inductive PathUnder (s : Snapshot) (m : ModuleEntry) : UInt32 → String → Prop
  | root : PathUnder s m m.root m.name
  | member {i p : UInt32} {path : String} (parent : s.parent? i = some p)
      (front : PathUnder s m p path) : PathUnder s m i (path ++ "." ++ s.nameOf i)

variable {s : Snapshot} {i j k : UInt32} {path : String} {rest : List String}

namespace Rooted

/-- The spellings of a declaration are its names behind each name of a module for its root. -/
theorem mem_spellings_iff (rooted : s.Rooted) (hi : s.Declares i) (hk : s.Declares k)
    (root : s.parent? k = none) (hnames : s.names i = s.nameOf k :: rest) :
    path ∈ s.spellings i ↔ ∃ m ∈ s.modules, m.root = k ∧ path = Dotted.join (m.name :: rest) := by
  obtain ⟨own, hown, hroot⟩ := rooted.module?_nameOf hk root
  have hfqn : s.fqn i = Dotted.join (own.name :: rest) := by
    rw [fqn_eq_join_names, hnames, (module?_spec hown).2]
  rw [spellings, (rooted.segments_fqn hi).trans hnames]
  simp only [List.mem_cons, List.mem_map, List.mem_filter, hown, Option.map_some, hroot,
    Option.some_inj, decide_eq_true_eq]
  constructor
  · rintro (rfl | ⟨m, ⟨hm, hmk, -⟩, rfl⟩)
    · exact ⟨own, (module?_spec hown).1, hroot, hfqn⟩
    · exact ⟨m, hm, hmk, rfl⟩
  · rintro ⟨m, hm, hmk, rfl⟩
    by_cases same : m.name = s.nameOf k
    · rw [hfqn, (module?_spec hown).2, same]
      exact .inl rfl
    · exact .inr ⟨m, ⟨hm, hmk, same⟩, rfl⟩

/-- The names of a declaration start with that of a root, and its path under a module for that root
has the name of the module in the place of it. -/
theorem exists_names (rooted : s.Rooted) (hi : s.Declares i) :
    ∃ k rest, s.Declares k ∧ s.parent? k = none ∧ s.names i = s.nameOf k :: rest ∧
      ∀ m ∈ s.modules, ∀ path,
        s.PathUnder m i path ↔ m.root = k ∧ path = Dotted.join (m.name :: rest) := by
  -- Up the tree: the path of a declaration extends that of its parent by one name.
  induction rooted.acc i with
  | intro i _ ih =>
    cases hp : s.parent? i with
    | none =>
      have ho : s.outer? i = none := by rw [rooted.outer?_eq, hp]
      refine ⟨i, [], hi, hp, names_of_outer?_eq_none hi ho, fun m hm path => ?_⟩
      rw [Dotted.join_singleton]
      constructor
      · rintro (_ | ⟨parent, -⟩)
        · exact ⟨rfl, rfl⟩
        · rw [hp] at parent
          cases parent
      · rintro ⟨rfl, rfl⟩
        exact .root
    | some p =>
      have ho : s.outer? i = some p := by rw [rooted.outer?_eq, hp]
      obtain ⟨k, rest, hk, root, hnames, paths⟩ := ih p ho (declares_of_outer? ho)
      refine ⟨k, rest ++ [s.nameOf i], hk, root, ?_, fun m hm path => ?_⟩
      · rw [names_of_outer? (rooted.acc i) ho, hnames, List.cons_append]
      · have longer : Dotted.join (m.name :: (rest ++ [s.nameOf i])) =
            Dotted.join (m.name :: rest) ++ "." ++ s.nameOf i := by
          rw [← List.cons_append, Dotted.join_append (List.cons_ne_nil _ _) (List.cons_ne_nil _ _),
            Dotted.join_singleton]
        rw [longer]
        constructor
        · rintro (_ | ⟨parent, front⟩)
          · rw [rooted.parent?_root hm] at hp
            cases hp
          · cases hp.symm.trans parent
            obtain ⟨at_root, rfl⟩ := (paths m hm _).1 front
            exact ⟨at_root, rfl⟩
        · rintro ⟨at_root, rfl⟩
          exact .member hp ((paths m hm _).2 ⟨at_root, rfl⟩)

/-- The spellings of a declaration are its paths under the names of the modules. -/
theorem mem_spellings_iff_pathUnder (rooted : s.Rooted) (hi : s.Declares i) :
    path ∈ s.spellings i ↔ ∃ m ∈ s.modules, s.PathUnder m i path := by
  obtain ⟨k, rest, hk, root, hnames, paths⟩ := rooted.exists_names hi
  rw [rooted.mem_spellings_iff hi hk root hnames]
  constructor
  · rintro ⟨m, hm, spelt⟩
    exact ⟨m, hm, (paths m hm path).2 spelt⟩
  · rintro ⟨m, hm, under⟩
    exact ⟨m, hm, (paths m hm path).1 under⟩

end Rooted

namespace Tidy

/-- A walk that looks for members in no alias passes the names between its start and its end. -/
theorem names_of_walk (tidy : s.Tidy) (hi : s.Declares i) (walk : rest.foldlM s.member? i = some j)
    (concrete : ∀ k ∈ s.scopesFrom i rest, ¬ s.IsAlias k) : s.names j = s.names i ++ rest := by
  induction rest generalizing i with
  | nil =>
    obtain rfl : i = j := by simpa using walk
    rw [List.append_nil]
  | cons name rest ih =>
    rw [List.foldlM_cons] at walk
    obtain ⟨m, hm, walk⟩ := Option.bind_eq_some_iff.1 walk
    rw [scopesFrom, List.forall_mem_cons, hm] at concrete
    have ho : s.outer? m = some i := by
      rw [tidy.outer?_eq]
      exact tidy.parent?_of_member? hi concrete.1 hm
    rw [ih (member?_spec hm).1 walk concrete.2, names_of_outer? (tidy.acc m) ho, (member?_spec hm).2,
      List.append_assoc, List.singleton_append]

theorem lookup_join (tidy : s.Tidy) {m : ModuleEntry} (hm : m ∈ s.modules)
    (undotted : ∀ x ∈ rest, '.' ∉ x.toList) :
    s.lookup (Dotted.join (m.name :: rest)) = rest.foldlM s.member? m.root := by
  have hpath : Dotted.segments (Dotted.join (m.name :: rest)) = m.name :: rest := by
    refine Dotted.segments_join ?_ (List.cons_ne_nil _ _)
    exact List.forall_mem_cons.2 ⟨(tidy.moduleName m hm).dot_not_mem, undotted⟩
  rw [lookup_eq hpath, tidy.module?_eq hm, Option.bind_some]

/-- The spellings of a declaration are its names behind each name of a module for its root. -/
theorem mem_spellings_iff (tidy : s.Tidy) (hi : s.Declares i) (hk : s.Declares k)
    (root : s.parent? k = none) (hnames : s.names i = s.nameOf k :: rest) :
    path ∈ s.spellings i ↔ ∃ m ∈ s.modules, m.root = k ∧ path = Dotted.join (m.name :: rest) :=
  tidy.rooted.mem_spellings_iff hi hk root hnames

theorem lookup_of_mem_spellings (tidy : s.Tidy) (hi : s.Declares i) (h : path ∈ s.spellings i) :
    s.lookup path = some i := by
  obtain ⟨k, rest, hk, root, hnames, walk⟩ := tidy.exists_walk hi
  obtain ⟨m, hm, rfl, rfl⟩ := (tidy.mem_spellings_iff hi hk root hnames).1 h
  rw [tidy.lookup_join hm, walk]
  intro x hx
  refine (tidy.plain_of_mem_names hi ?_).dot_not_mem
  rw [hnames]
  exact List.mem_cons_of_mem _ hx

theorem mem_spellings_of_lookup (tidy : s.Tidy) (h : s.lookup path = some i)
    (concrete : ∀ k ∈ s.scopes path, ¬ s.IsAlias k) : path ∈ s.spellings i := by
  have hi := tidy.declares_of_lookup h
  obtain ⟨first, rest, m, hpath, hm, walk⟩ := lookup_eq_some_iff.1 h
  have hmem := (module?_spec hm).1
  have hroot : s.Declares m.root := tidy.moduleRoot m hmem
  have ho : s.outer? m.root = none := by rw [tidy.outer?_eq, tidy.parent?_root hmem]
  rw [scopes, hpath] at concrete
  simp only [hm, Option.map_some, Option.getD_some] at concrete
  have hnames := tidy.names_of_walk hroot walk concrete
  rw [names_of_outer?_eq_none hroot ho, List.singleton_append] at hnames
  refine (tidy.mem_spellings_iff hi hroot (tidy.parent?_root hmem) hnames).2 ⟨m, hmem, rfl, ?_⟩
  rw [(module?_spec hm).2, ← hpath, Dotted.join_segments]

end Tidy

/-- In a tidy snapshot names and declarations are inverse: the fully qualified name of a declaration
leads back to it, so it has no other one, as do its spellings, and a path that leads to it through
no alias is a spelling of it. An index finds what the snapshot looks up. -/
theorem names_inverse (tidy : s.Tidy) :
    (∀ i, s.Declares i → s.lookup (s.fqn i) = some i) ∧
      (∀ i j, s.Declares i → s.Declares j → s.fqn i = s.fqn j → i = j) ∧
      (∀ i path, s.Declares i → path ∈ s.spellings i → s.lookup path = some i) ∧
      (∀ i path, s.lookup path = some i → (∀ k ∈ s.scopes path, ¬ s.IsAlias k) →
        path ∈ s.spellings i) ∧
      (∀ i, s.Declares i → Utf8.Short (s.fqn i) →
        Index.Answers s (Index.fullyQualifiedName ⟨i⟩ >>= Index.findDeclaration) (.ok (some ⟨i⟩))) ∧
      ∀ path, Utf8.Short path →
        Index.Answers s (Index.findDeclaration path) (.ok ((s.lookup path).map Handle.mk)) := by
  refine ⟨fun i hi => tidy.lookup_fqn hi, fun i j hi hj same => ?_,
    fun i path hi h => tidy.lookup_of_mem_spellings hi h,
    fun i path h concrete => tidy.mem_spellings_of_lookup h concrete, fun i hi short => ?_,
    fun path short => Index.answers_findDeclaration tidy.toRootsClosed short⟩
  · have found := tidy.lookup_fqn hi
    rw [same, tidy.lookup_fqn hj] at found
    exact (Option.some.inj found).symm
  · have found := Index.answers_findDeclaration tidy.toRootsClosed short
    rw [tidy.lookup_fqn hi] at found
    exact (Index.answers_fullyQualifiedName hi short).bind found

theorem names_inverse_sample :
    sample.Tidy ∧ sample.lookup (sample.fqn 4) = some 4 ∧
      sample.lookup "std.mem.eql" = some 4 ∧ "std.mem.eql" ∈ sample.spellings 4 ∧
      Index.Answers sample (Index.fullyQualifiedName ⟨4⟩ >>= Index.findDeclaration) (.ok (some ⟨4⟩)) ∧
      Index.Answers sample (Index.findDeclaration "builtin.mem.eql") (.ok (some ⟨4⟩)) := by
  obtain ⟨found, -, spelt, only, back, find⟩ := names_inverse tidy_sample
  have hi : sample.Declares 4 := by decide
  have known : sample.lookup "std.mem.eql" = some 4 := spelt 4 _ hi (by decide +kernel)
  have hopped := find "builtin.mem.eql" (by decide +kernel)
  have hop : sample.lookup "builtin.mem.eql" = some 4 := by decide +kernel
  rw [hop] at hopped
  exact ⟨tidy_sample, found 4 hi, known, only 4 _ known (by decide +kernel),
    back 4 hi (by decide +kernel), hopped⟩

/-- A path that steps through an alias is no spelling of what it leads to. -/
example : sample.lookup "builtin.mem.eql" = some 4 ∧ "builtin.mem.eql" ∉ sample.spellings 4 := by
  decide +kernel

end DocIndex.Snapshot
