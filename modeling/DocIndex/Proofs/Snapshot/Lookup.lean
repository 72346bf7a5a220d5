import Mathlib.Data.List.TakeWhile
import DocIndex.Engine.Basic
import DocIndex.Proofs.Snapshot.Tidy

/-!
# Looking paths up

What a path leads to is found segment by segment, so that a path can be cut at any dot
(`lookup_append`) and every path in front of a known one is known (`lookup_isSome_of_append`). In a
tidy snapshot a declaration is at the end of the walk along the names around it
(`Tidy.exists_walk`), so its fully qualified name leads back to it (`Tidy.lookup_fqn`).
-/

namespace DocIndex.Snapshot

variable {s : Snapshot} {i j m p : UInt32} {d : Decl} {name path : String}

/-! ## Steps -/

/-- Whether the declaration is an alias. -/
def IsAlias (s : Snapshot) (i : UInt32) : Prop :=
  ∃ d, s.decl? i = some d ∧ d.category = .redirect

instance : Decidable (s.IsAlias i) :=
  decidable_of_iff ((s.decl? i).any (·.category = .redirect) = true)
    (by simp [IsAlias, Option.any_eq_true])

theorem follow_eq_self (hd : s.decl? i = some d) (concrete : d.category ≠ .redirect) :
    s.follow i = some i := by
  rw [follow, followFor, hd]
  exact if_neg concrete

/-- A step finds the first of the members with the name. -/
theorem member?_eq (hd : s.decl? p = some d) (concrete : d.category ≠ .redirect) (name : String) :
    s.member? p name = d.members.find? fun m => (s.decl? m).any (·.name = name) := by
  simp [member?, follow_eq_self hd concrete, hd]

theorem member?_spec (h : s.member? p name = some m) : s.Declares m ∧ s.nameOf m = name := by
  simp only [member?, Option.bind_eq_bind, Option.bind_eq_some_iff] at h
  obtain ⟨c, -, d, -, hm⟩ := h
  have hm := List.find?_some hm
  rw [Option.any_eq_true_iff_get] at hm
  obtain ⟨declared, hname⟩ := hm
  obtain ⟨e, he⟩ := Option.isSome_iff_exists.1 declared
  refine ⟨declares_of_decl? he, ?_⟩
  simpa [nameOf, he] using hname

theorem module?_spec {m : ModuleEntry} (h : s.module? name = some m) :
    m ∈ s.modules ∧ m.name = name :=
  ⟨List.mem_of_find?_eq_some h, by simpa using List.find?_some h⟩

/-- The first module with a name, of those in front of the first one without a name. -/
def namedModule? (s : Snapshot) (name : String) : Option ModuleEntry :=
  (s.modules.takeWhile (·.name ≠ "")).find? (·.name = name)

theorem namedModule?_eq (named : ∀ m ∈ s.modules, m.name ≠ "") (name : String) :
    s.namedModule? name = s.module? name := by
  rw [namedModule?, List.takeWhile_eq_self_iff.2 (by simpa using named), module?]

theorem namedModule?_spec {m : ModuleEntry} (h : s.namedModule? name = some m) :
    m ∈ s.modules ∧ m.name = name :=
  ⟨(List.takeWhile_sublist _).subset (List.mem_of_find?_eq_some h), by simpa using List.find?_some h⟩

/-- The modules that an enumeration comes to from a position on: those in front of the first one
without a name. -/
def listedFrom (s : Snapshot) (n : Nat) : List ModuleEntry :=
  (s.modules.drop n).takeWhile (·.name ≠ "")

theorem head?_listedFrom (n : Nat) :
    (s.listedFrom n).head? = s.modules[n]?.filter (·.name ≠ "") := by
  rw [listedFrom, List.head?_takeWhile, List.head?_drop]

/-- The module that an enumeration comes to stands at its position, and behind it the enumeration
goes on. -/
theorem listedFrom_eq_cons {n : Nat} {m : ModuleEntry} {l : List ModuleEntry}
    (h : s.listedFrom n = m :: l) : s.modules[n]? = some m ∧ s.listedFrom (n + 1) = l := by
  have head := head?_listedFrom (s := s) n
  rw [h, List.head?_cons, eq_comm, Option.filter_eq_some_iff] at head
  obtain ⟨within, rfl⟩ := List.getElem?_eq_some_iff.1 head.1
  refine ⟨head.1, ?_⟩
  rw [listedFrom, List.drop_eq_getElem_cons within,
    List.takeWhile_cons_of_pos (p := fun e : ModuleEntry => decide (e.name ≠ "")) head.2] at h
  exact (List.cons.inj h).2

/-- The root declaration of the first source file with a path. -/
def fileRoot? (s : Snapshot) (path : String) : Option UInt32 :=
  (s.files.find? (·.path = path)).map (·.root)

theorem fileRoot?_spec (h : s.fileRoot? path = some i) : ∃ f ∈ s.files, f.path = path ∧ f.root = i := by
  obtain ⟨f, hf, rfl⟩ := Option.map_eq_some_iff.1 h
  exact ⟨f, List.mem_of_find?_eq_some hf, by simpa using List.find?_some hf, rfl⟩

theorem RootsClosed.declares_of_fileRoot? (closed : s.RootsClosed) (h : s.fileRoot? path = some i) :
    s.Declares i := by
  obtain ⟨f, hf, -, rfl⟩ := fileRoot?_spec h
  exact closed.fileRoot f hf

/-- In a table of the usual size no position is the absent value. -/
theorem toUInt64_ne_absent (size : s.decls.size < 2 ^ 32) (hi : s.Declares i) :
    i.toUInt64 ≠ absent := by
  intro h
  have word := congrArg UInt64.toNat h
  rw [UInt32.toNat_toUInt64] at word
  have bound : i.toNat < s.decls.size := hi
  have last : absent.toNat = 0xFFFFFFFF := rfl
  omega

theorem filter_present {o : Option UInt32} (size : s.decls.size < 2 ^ 32)
    (declared : ∀ i ∈ o, s.Declares i) : (o.filter fun i => i.toUInt64 ≠ absent) = o := by
  cases o with
  | none => rfl
  | some i => simp [Option.filter, toUInt64_ne_absent size (declared i rfl)]

/-! ## Paths -/

theorem lookup_eq {first : String} {rest : List String} (h : Dotted.segments path = first :: rest) :
    s.lookup path = (s.module? first).bind fun m => rest.foldlM s.member? m.root := by
  rw [lookup, h]
  rfl

theorem lookup_eq_some_iff : s.lookup path = some i ↔
    ∃ first rest m, Dotted.segments path = first :: rest ∧ s.module? first = some m ∧
      rest.foldlM s.member? m.root = some i := by
  obtain ⟨first, rest, hpath⟩ := List.exists_cons_of_ne_nil (Dotted.segments_ne_nil path)
  simp [lookup_eq hpath, hpath, Option.bind_eq_some_iff]

theorem lookup_append (s : Snapshot) (a b : String) :
    s.lookup (a ++ "." ++ b) =
      (s.lookup a).bind fun i => (Dotted.segments b).foldlM s.member? i := by
  obtain ⟨first, rest, ha⟩ := List.exists_cons_of_ne_nil (Dotted.segments_ne_nil a)
  have hab : Dotted.segments (a ++ "." ++ b) = first :: (rest ++ Dotted.segments b) := by
    rw [Dotted.segments_append, ha, List.cons_append]
  simp [lookup_eq hab, lookup_eq ha, List.foldlM_append, Option.bind_assoc]

/-- Every path in front of a known one is known. -/
theorem lookup_isSome_of_append {a b : String} (h : (s.lookup (a ++ "." ++ b)).isSome) :
    (s.lookup a).isSome := by
  rw [lookup_append] at h
  exact Option.isSome_of_isSome_bind h

theorem foldlM_member?_spec {P : UInt32 → Prop} (step : ∀ p name m, s.member? p name = some m → P m)
    {l : List String} (h : l.foldlM s.member? i = some j) (hi : P i) : P j := by
  induction l generalizing i with
  | nil =>
    obtain rfl : i = j := by simpa using h
    exact hi
  | cons name l ih =>
    rw [List.foldlM_cons] at h
    obtain ⟨m, hm, h⟩ := Option.bind_eq_some_iff.1 h
    exact ih h (step i name m hm)

/-- Every segment that a walk has passed is the name of a declaration. -/
theorem exists_nameOf_of_mem {l : List String} (h : l.foldlM s.member? i = some j) :
    ∀ x ∈ l, ∃ k, s.Declares k ∧ s.nameOf k = x := by
  induction l generalizing i with
  | nil => simp
  | cons name l ih =>
    rw [List.foldlM_cons] at h
    obtain ⟨m, hm, h⟩ := Option.bind_eq_some_iff.1 h
    exact List.forall_mem_cons.2 ⟨⟨m, member?_spec hm⟩, ih h⟩

theorem ModulesClosed.declares_of_lookup (closed : s.ModulesClosed) (h : s.lookup path = some i) :
    s.Declares i := by
  obtain ⟨first, rest, m, -, hm, h⟩ := lookup_eq_some_iff.1 h
  exact foldlM_member?_spec (fun _ _ _ h => (member?_spec h).1) h
    (closed.moduleRoot m (module?_spec hm).1)

/-! ## Rooted snapshots -/

namespace Rooted

theorem acc (rooted : s.Rooted) (i : UInt32) : Acc (Follows s.outer?) i :=
  acc_outer? rooted.acyclic i

theorem outer?_eq (rooted : s.Rooted) (i : UInt32) : s.outer? i = s.parent? i := by
  cases hp : s.parent? i with
  | none => rw [outer?, hp, Option.filter_none]
  | some p =>
    obtain ⟨d, hd, hdp⟩ := Option.bind_eq_some_iff.1 hp
    exact outer?_eq_some_iff.2 ⟨hp, rooted.parent d (mem_of_decl? hd) p hdp⟩

theorem undotted_of_mem_names (rooted : s.Rooted) (hi : s.Declares i) (h : name ∈ s.names i) :
    '.' ∉ name.toList := by
  rw [names, List.mem_reverse, ancestry_eq_map_chain hi, List.mem_map] at h
  obtain ⟨j, hj, rfl⟩ := h
  obtain ⟨d, hd⟩ := exists_decl?_iff.2 (declares_of_mem_chain hi hj)
  rw [nameOf_eq hd]
  exact rooted.undotted d (mem_of_decl? hd)

theorem segments_fqn (rooted : s.Rooted) (hi : s.Declares i) :
    Dotted.segments (s.fqn i) = s.names i :=
  Dotted.segments_join (fun _ h => rooted.undotted_of_mem_names hi h) (names_ne_nil hi)

/-- The name of a module leads to that module. -/
theorem module?_eq (rooted : s.Rooted) {m : ModuleEntry} (hm : m ∈ s.modules) :
    s.module? m.name = some m := by
  cases h : s.module? m.name with
  | none => simpa using List.find?_eq_none.1 h m hm
  | some n =>
    obtain ⟨hn, hname⟩ := module?_spec h
    rw [List.inj_on_of_nodup_map rooted.nodup_modules hn hm hname]

/-- What has no parent is the root of the module that its name leads to. -/
theorem module?_nameOf (rooted : s.Rooted) (hi : s.Declares i) (hp : s.parent? i = none) :
    ∃ m, s.module? (s.nameOf i) = some m ∧ m.root = i := by
  obtain ⟨d, hd⟩ := exists_decl?_iff.2 hi
  obtain ⟨m, hm, hroot, hname⟩ := rooted.rootName i d hd (by rwa [parent?_eq hd] at hp)
  refine ⟨m, ?_, hroot⟩
  rw [nameOf_eq hd, ← hname]
  exact rooted.module?_eq hm

theorem parent?_root (rooted : s.Rooted) {m : ModuleEntry} (hm : m ∈ s.modules) :
    s.parent? m.root = none := by
  cases hd : s.decl? m.root with
  | none => rw [parent?, hd, Option.bind_none]
  | some d =>
    rw [parent?_eq hd]
    exact (rooted.root_iff m.root d hd).2 ⟨m, hm, rfl⟩

end Rooted

/-! ## Tidy snapshots -/

namespace Tidy

theorem acc (tidy : s.Tidy) (i : UInt32) : Acc (Follows s.outer?) i :=
  tidy.rooted.acc i

theorem outer?_eq (tidy : s.Tidy) (i : UInt32) : s.outer? i = s.parent? i :=
  tidy.rooted.outer?_eq i

theorem plain_nameOf (tidy : s.Tidy) (hi : s.Declares i) : Dotted.Plain (s.nameOf i) := by
  obtain ⟨d, hd⟩ := exists_decl?_iff.2 hi
  rw [nameOf_eq hd]
  exact tidy.declName d (mem_of_decl? hd)

theorem plain_of_mem_names (tidy : s.Tidy) (hi : s.Declares i) (h : name ∈ s.names i) :
    Dotted.Plain name := by
  rw [names, List.mem_reverse, ancestry_eq_map_chain hi, List.mem_map] at h
  obtain ⟨j, hj, rfl⟩ := h
  exact tidy.plain_nameOf (declares_of_mem_chain hi hj)

theorem segments_fqn (tidy : s.Tidy) (hi : s.Declares i) :
    Dotted.segments (s.fqn i) = s.names i :=
  tidy.rooted.segments_fqn hi

theorem clean_fqn (tidy : s.Tidy) (hi : s.Declares i) : Dotted.Clean (s.fqn i) := by
  intro x hx
  rw [tidy.segments_fqn hi] at hx
  exact tidy.plain_of_mem_names hi hx

theorem moduleName_ne (tidy : s.Tidy) : ∀ m ∈ s.modules, m.name ≠ "" :=
  fun m hm => (tidy.moduleName m hm).1

/-- The name of a module leads to that module. -/
theorem module?_eq (tidy : s.Tidy) {m : ModuleEntry} (hm : m ∈ s.modules) :
    s.module? m.name = some m :=
  tidy.rooted.module?_eq hm

/-- What has no parent is the root of the module that its name leads to. -/
theorem module?_nameOf (tidy : s.Tidy) (hi : s.Declares i) (hp : s.parent? i = none) :
    ∃ m, s.module? (s.nameOf i) = some m ∧ m.root = i :=
  tidy.rooted.module?_nameOf hi hp

theorem parent?_root (tidy : s.Tidy) {m : ModuleEntry} (hm : m ∈ s.modules) :
    s.parent? m.root = none :=
  tidy.rooted.parent?_root hm

/-- A declaration is found by its name among the members of its parent, which is no alias. -/
theorem member?_nameOf (tidy : s.Tidy) (hp : s.parent? i = some p) :
    s.member? p (s.nameOf i) = some i := by
  obtain ⟨d, hd, hdp⟩ := Option.bind_eq_some_iff.1 hp
  obtain ⟨e, he⟩ := exists_decl?_iff.2 (tidy.parent d (mem_of_decl? hd) p hdp)
  have listed : i ∈ e.members := tidy.member_of_parent i d hd p hdp e he
  have concrete : e.category ≠ .redirect := by
    intro h
    rw [tidy.redirect e (mem_of_decl? he) h] at listed
    exact List.not_mem_nil listed
  rw [member?_eq he concrete]
  cases hf : e.members.find? fun m => (s.decl? m).any (·.name = s.nameOf i) with
  | none => simpa [hd, nameOf_eq hd] using List.find?_eq_none.1 hf i listed
  | some m =>
    have found : s.member? p (s.nameOf i) = some m := by rw [member?_eq he concrete, hf]
    rw [tidy.sibling e (mem_of_decl? he) m (List.mem_of_find?_eq_some hf) i listed
      (member?_spec found).2]

theorem mem_members_iff (tidy : s.Tidy) (hd : s.decl? p = some d) :
    i ∈ d.members ↔ s.parent? i = some p := by
  constructor
  · exact tidy.parent_of_member p d hd i
  · intro hp
    obtain ⟨e, he, hep⟩ := Option.bind_eq_some_iff.1 hp
    exact tidy.member_of_parent i e he p hep d hd

theorem eq_of_nameOf (tidy : s.Tidy) (hi : s.parent? i = some p) (hj : s.parent? j = some p)
    (same : s.nameOf i = s.nameOf j) : i = j := by
  have found := tidy.member?_nameOf hi
  rw [same, tidy.member?_nameOf hj] at found
  exact (Option.some.inj found).symm

theorem parent?_of_member? (tidy : s.Tidy) (hp : s.Declares p) (concrete : ¬ s.IsAlias p)
    (h : s.member? p name = some m) : s.parent? m = some p := by
  obtain ⟨d, hd⟩ := exists_decl?_iff.2 hp
  rw [member?_eq hd fun c => concrete ⟨d, hd, c⟩] at h
  exact tidy.parent_of_member p d hd m (List.mem_of_find?_eq_some h)

/-- Every declaration is at the end of a walk from one without parent, along the names that its own
fully qualified name consists of. -/
theorem exists_walk (tidy : s.Tidy) (hi : s.Declares i) :
    ∃ k rest, s.Declares k ∧ s.parent? k = none ∧ s.names i = s.nameOf k :: rest ∧
      rest.foldlM s.member? k = some i := by
  -- Down the tree: the walk to a declaration extends that to its parent by one step.
  induction tidy.acc i with
  | intro i _ ih =>
    cases hp : s.parent? i with
    | none =>
      have ho : s.outer? i = none := by rw [tidy.outer?_eq, hp]
      exact ⟨i, [], hi, hp, names_of_outer?_eq_none hi ho, rfl⟩
    | some p =>
      have ho : s.outer? i = some p := by rw [tidy.outer?_eq, hp]
      obtain ⟨k, rest, hk, root, hnames, walk⟩ := ih p ho (declares_of_outer? ho)
      refine ⟨k, rest ++ [s.nameOf i], hk, root, ?_, ?_⟩
      · rw [names_of_outer? (tidy.acc i) ho, hnames, List.cons_append]
      · rw [List.foldlM_append, walk]
        simp [tidy.member?_nameOf hp]

/-- The fully qualified name of a declaration leads back to it. -/
theorem lookup_fqn (tidy : s.Tidy) (hi : s.Declares i) : s.lookup (s.fqn i) = some i := by
  obtain ⟨k, rest, hk, root, hnames, walk⟩ := tidy.exists_walk hi
  obtain ⟨m, hm, hroot⟩ := tidy.module?_nameOf hk root
  rw [lookup_eq ((tidy.segments_fqn hi).trans hnames), hm, Option.bind_some, hroot, walk]

/-- A path that leads somewhere consists of the names of a module and of declarations. -/
theorem clean_of_lookup (tidy : s.Tidy) (h : s.lookup path = some i) : Dotted.Clean path := by
  obtain ⟨first, rest, m, hpath, hm, h⟩ := lookup_eq_some_iff.1 h
  rw [Dotted.Clean, hpath, List.forall_mem_cons]
  constructor
  · rw [← (module?_spec hm).2]
    exact tidy.moduleName m (module?_spec hm).1
  · intro x hx
    obtain ⟨k, hk, rfl⟩ := exists_nameOf_of_mem h x hx
    exact tidy.plain_nameOf hk

end Tidy

end DocIndex.Snapshot
