import DocIndex.Proofs.Resolve.RoundTrip

/-!
# Names of separate modules

Below a module that stands apart from the main one the public name of a declaration is its fully
qualified name. A name without a root is looked for below the internal root and below the public
alias before it is taken as it is (`Config.rewritten`). So it resolves back at once, unless one of
these spellings leads to another declaration (`resolve_separate`), which needs a member of the main
module that is named like the separate one. That public names and names of the main module are told
apart by their first segments takes roots without dots; with dots in them a name may be a root
itself.
-/

namespace DocIndex

open Dotted

namespace Config

variable {c : Config} {name : String}

/-- The spellings that are tried before a name itself. -/
def rewritten (c : Config) (name : String) : List String :=
  match c.anchor name with
  | .unprefixed => [c.atRoot name, c.atAlias name]
  | .belowAlias path => [c.atRoot path]
  | .belowRoot => []

theorem directSpellings_eq (c : Config) (name : String) :
    c.directSpellings name = c.rewritten name ++ [name] := by
  unfold directSpellings rewritten
  cases c.anchor name <;> rfl

theorem exists_candidates_eq (c : Config) (name : String) :
    ∃ later, c.candidates name = (c.rewritten name ++ [name]).map (.direct, ·) ++ later := by
  rw [← directSpellings_eq]
  exact ⟨_, rfl⟩

theorem rewritten_atRoot (rest : String) : c.rewritten (c.atRoot rest) = [] := by
  rw [rewritten, anchor_atRoot]

theorem mem_rewritten {spelling : String} (notBelow : below? c.publicAlias name = none)
    (h : spelling ∈ c.rewritten name) : spelling = c.atRoot name ∨ spelling = c.atAlias name := by
  rw [rewritten, anchor, notBelow] at h
  cases below : below? c.internalRoot name with
  | none => simpa [below] using h
  | some rest => simp [below] at h

theorem publicName_eq_self (main : name ≠ c.internalRoot)
    (below : below? c.internalRoot name = none) : c.publicName name = name := by
  rw [publicName, if_neg main, below]

end Config

namespace Dotted

variable {front name rest : String}

theorem head?_segments_below (h : below? front name = some rest) :
    (segments name).head? = (segments front).head? := by
  obtain ⟨first, others, hfront⟩ := List.exists_cons_of_ne_nil (segments_ne_nil front)
  rw [below?_eq_some_iff.1 h, segments_append, hfront]
  rfl

/-- A text without a dot that is not the first segment of a name is no front of it. -/
theorem ne_of_head?_ne (undotted : '.' ∉ front.toList) (head : (segments name).head? ≠ some front) :
    name ≠ front ∧ below? front name = none := by
  have single : (segments front).head? = some front := by rw [segments_eq_singleton undotted]; rfl
  constructor
  · rintro rfl
    exact head single
  · rw [Option.eq_none_iff_forall_ne_some]
    intro rest below
    exact head ((head?_segments_below below).trans single)

theorem eq_or_exists_below (head : (segments name).head? = some front) :
    name = front ∨ ∃ rest, name = front ++ "." ++ rest := by
  obtain ⟨others, split⟩ := List.head?_eq_some_iff.1 head
  rw [← join_segments name, split]
  by_cases last : others = []
  · rw [last, join_singleton]
    exact .inl rfl
  · rw [join_cons front last]
    exact .inr ⟨_, rfl⟩

end Dotted

namespace Snapshot

variable {s : Snapshot} {c : Config} {i r : UInt32} {path rest : String} {strategy : Strategy}

/-- Behind some other spellings a known one is found, or the first known one before it. -/
theorem exists_firstKnown (known : s.lookup path = some i) (strategy : Strategy)
    (front : List String) (later : List (Strategy × String)) :
    ∃ spelling, s.firstKnown ((front ++ [path]).map (strategy, ·) ++ later) =
      some ((front.findSome? s.lookup).getD i, strategy, spelling) := by
  induction front with
  | nil => exact ⟨path, firstKnown_cons known strategy later⟩
  | cons spelling front ih =>
    cases found : s.lookup spelling with
    | none => simpa [firstKnown, found] using ih
    | some j => exact ⟨spelling, by simpa [found] using firstKnown_cons found strategy _⟩

/-- What is not there under the first segment of a name is not there under the name. -/
theorem lookup_below_eq_none {root first name : String} (head : (segments name).head? = some first)
    (unknown : s.lookup (root ++ "." ++ first) = none) : s.lookup (root ++ "." ++ name) = none := by
  rcases eq_or_exists_below head with rfl | ⟨rest, rfl⟩
  · exact unknown
  · have path : root ++ "." ++ (first ++ "." ++ rest) = root ++ "." ++ first ++ "." ++ rest := by
      simp only [String.append_assoc]
    by_contra known
    rw [path, ← Ne, ← Option.isSome_iff_ne_none] at known
    have front := lookup_isSome_of_append known
    rw [unknown] at front
    cases front

theorem findSome?_rewritten_eq_none {first name : String}
    (notBelow : below? c.publicAlias name = none) (head : (segments name).head? = some first)
    (atRoot : s.lookup (c.atRoot first) = none) (atAlias : s.lookup (c.atAlias first) = none) :
    (c.rewritten name).findSome? s.lookup = none := by
  rw [List.findSome?_eq_none_iff]
  intro spelling h
  rcases Config.mem_rewritten notBelow h with rfl | rfl
  · exact lookup_below_eq_none head atRoot
  · exact lookup_below_eq_none head atAlias

/-! ## The tree of a module -/

/-- The names of a declaration in the tree of an outermost one start with the name of that. -/
theorem Tidy.exists_names_within (tidy : s.Tidy) (hr : s.Declares r)
    (outermost : s.parent? r = none)
    (within : Relation.ReflTransGen (Follows s.parent?) r i) :
    s.Declares i ∧ ∃ rest, s.names i = s.nameOf r :: rest := by
  induction within with
  | refl =>
    have ho : s.outer? r = none := by rw [tidy.outer?_eq, outermost]
    exact ⟨hr, [], names_of_outer?_eq_none hr ho⟩
  | @tail p j _ step ih =>
    obtain ⟨-, rest, names⟩ := ih
    have ho : s.outer? j = some p := by rw [tidy.outer?_eq, step]
    refine ⟨declares_of_parent? step, rest ++ [s.nameOf j], ?_⟩
    rw [names_of_outer? (tidy.acc j) ho, names, List.cons_append]

/-- Where no name of a module is one of the roots of the configuration, neither is the first segment
of a path in its tree. -/
theorem Tidy.head?_segments_fqn (tidy : s.Tidy) {m : ModuleEntry} (hm : m ∈ s.modules)
    (apart : ∀ n ∈ s.modules, n.root = m.root → n.name ≠ c.internalRoot ∧ n.name ≠ c.publicAlias)
    (within : Relation.ReflTransGen (Follows s.parent?) m.root i) :
    s.Declares i ∧ (segments (s.fqn i)).head? = some (s.nameOf m.root) ∧
      s.nameOf m.root ≠ c.internalRoot ∧ s.nameOf m.root ≠ c.publicAlias := by
  have hr := tidy.moduleRoot m hm
  have outermost := tidy.parent?_root hm
  obtain ⟨hi, rest, names⟩ := tidy.exists_names_within hr outermost within
  obtain ⟨n, hn, hroot⟩ := tidy.module?_nameOf hr outermost
  obtain ⟨mem, name⟩ := module?_spec hn
  refine ⟨hi, ?_, name ▸ apart n mem hroot⟩
  rw [tidy.segments_fqn hi, names, List.head?_cons]

/-! ## What public names are resolved to -/

variable (tidy : s.Tidy) (file : ∀ f ∈ s.files, '/' ∈ f.path.toList)

include tidy file

/-- A name that is shown as it is is resolved by its own spellings. -/
theorem exists_resolution_fqn (hi : s.Declares i) (main : s.fqn i ≠ c.internalRoot)
    (byAlias : s.fqn i ≠ c.publicAlias) :
    ∃ x, s.resolution c (s.fqn i) = some x ∧ x.strategy = .direct ∧
      x.handle = ⟨((c.rewritten (s.fqn i)).findSome? s.lookup).getD i⟩ := by
  have clean := tidy.clean_fqn hi
  have other : ¬ c.namesRoot (s.fqn i) = true := by
    rw [Config.namesRoot_iff]
    rintro (empty | same | same)
    · exact not_clean_empty (empty ▸ clean)
    · exact byAlias same
    · exact main same
  obtain ⟨later, listed⟩ := c.exists_candidates_eq (s.fqn i)
  obtain ⟨spelling, found⟩ :=
    exists_firstKnown (tidy.lookup_fqn hi) .direct (c.rewritten (s.fqn i)) later
  rw [← listed] at found
  rw [resolution_of_clean file clean other, pathResolution_eq found]
  exact ⟨_, rfl, rfl, rfl⟩

/-- A name below an internal root with dots is shown below the alias, and found below that root. -/
theorem exists_resolution_atAlias (hi : s.Declares i) (below : s.fqn i = c.atRoot rest)
    (plain : Plain c.publicAlias) (apart : (segments (s.fqn i)).head? ≠ some c.publicAlias) :
    ∃ x, s.resolution c (c.atAlias rest) = some x ∧ x.strategy = .direct ∧ x.handle = ⟨i⟩ := by
  have fronts : (segments (s.fqn i)).head? = (segments c.internalRoot).head? :=
    head?_segments_below (below?_eq_some_iff.2 below)
  have aliased : (segments (c.atAlias rest)).head? = some c.publicAlias := by
    rw [Config.atAlias, segments_append, plain.segments_eq]
    rfl
  have notBelow : below? c.internalRoot (c.atAlias rest) = none := by
    rw [Option.eq_none_iff_forall_ne_some]
    intro other h
    exact apart (fronts.trans ((head?_segments_below h).symm.trans aliased))
  have clean : Clean (c.atAlias rest) := by
    have clean := tidy.clean_fqn hi
    rw [below] at clean
    exact clean_append.2 ⟨plain.clean, (clean_append.1 clean).2⟩
  have other : ¬ c.namesRoot (c.atAlias rest) = true := by
    rw [Config.namesRoot_iff]
    rintro (empty | same | same)
    · exact not_clean_empty (empty ▸ clean)
    · exact plain.ne_append same.symm
    · exact apart (fronts.trans (same ▸ aliased))
  have path : c.pathOf? (c.atAlias rest) = some rest := by
    rw [Config.pathOf?, Config.anchor, notBelow, Config.atAlias, below?_append]
  obtain ⟨others, listed⟩ := Config.candidates_eq_cons path
  have known : s.lookup (c.atRoot rest) = some i := by rw [← below, tidy.lookup_fqn hi]
  have found := firstKnown_cons known .direct others
  rw [← listed] at found
  rw [resolution_of_clean file clean other, pathResolution_eq found]
  exact ⟨_, rfl, rfl, rfl⟩

theorem exists_resolution_publicName (hi : s.Declares i) (main : s.fqn i ≠ c.internalRoot)
    (byAlias : s.fqn i ≠ c.publicAlias)
    (shown : below? c.internalRoot (s.fqn i) = none ∨ Plain c.publicAlias)
    (apart : (segments (s.fqn i)).head? ≠ some c.publicAlias) :
    ∃ x, s.resolution c (c.publicName (s.fqn i)) = some x ∧ x.strategy = .direct ∧
      x.handle = ⟨((c.rewritten (s.fqn i)).findSome? s.lookup).getD i⟩ := by
  cases below : below? c.internalRoot (s.fqn i) with
  | none =>
    rw [Config.publicName_eq_self main below]
    exact exists_resolution_fqn tidy file hi main byAlias
  | some rest =>
    have plain : Plain c.publicAlias := shown.resolve_left (by simp [below])
    have path : s.fqn i = c.atRoot rest := below?_eq_some_iff.1 below
    have shownAs : c.publicName (s.fqn i) = c.atAlias rest := by
      rw [Config.publicName, if_neg main, below]
      rfl
    rw [shownAs, path, Config.rewritten_atRoot]
    exact exists_resolution_atAlias tidy file hi path plain apart

end Snapshot

namespace Index

open Snapshot Table

variable {s : Snapshot} {c : Config} {i : UInt32}

theorem answers_resolve_publicName (closed : s.RootsClosed) (fits : s.Fits) (hi : s.Declares i)
    (short : c.Fits (c.publicName (s.fqn i))) {x : Option Resolved}
    (resolved : s.resolution c (c.publicName (s.fqn i)) = x) :
    Answers s (do resolve c (c.publicName (← fullyQualifiedName ⟨i⟩))) (.ok x) := by
  rw [← resolved]
  exact (answers_fullyQualifiedName hi (fits.fqn i hi)).bind (answers_resolve closed fits short)

/-- The public name of a declaration in the tree of a module that shares no root with those of the
configuration is resolved directly: to what the first known one of the spellings below the two roots
leads to, and to the declaration itself if there is none. So it resolves back if neither root has a
member that is named like the module. Roots with dots in their names must not be the path itself,
and below such an internal root the alias has to be a plain name. -/
theorem resolve_separate (tidy : s.Tidy) (file : ∀ f ∈ s.files, '/' ∈ f.path.toList)
    (fits : s.Fits) {m : ModuleEntry} (hm : m ∈ s.modules)
    (apart : ∀ n ∈ s.modules, n.root = m.root → n.name ≠ c.internalRoot ∧ n.name ≠ c.publicAlias)
    (within : Relation.ReflTransGen (Follows s.parent?) m.root i)
    (dottedRoot : '.' ∈ c.internalRoot.toList → s.fqn i ≠ c.internalRoot ∧
      (below? c.internalRoot (s.fqn i) = none ∨ Plain c.publicAlias))
    (dottedAlias : '.' ∈ c.publicAlias.toList → s.fqn i ≠ c.publicAlias)
    (short : c.Fits (c.publicName (s.fqn i))) :
    ∃ x, Answers s (do resolve c (c.publicName (← fullyQualifiedName ⟨i⟩))) (.ok (some x)) ∧
      x.strategy = .direct ∧
      x.handle = ⟨((c.rewritten (s.fqn i)).findSome? s.lookup).getD i⟩ ∧
      ('.' ∉ c.publicAlias.toList → s.lookup (c.atRoot (s.nameOf m.root)) = none →
        s.lookup (c.atAlias (s.nameOf m.root)) = none → x.handle = ⟨i⟩) := by
  obtain ⟨hi, head, otherRoot, otherAlias⟩ := tidy.head?_segments_fqn hm apart within
  have apartRoot : (segments (s.fqn i)).head? ≠ some c.internalRoot := by
    rw [head]
    exact fun same => otherRoot (Option.some.inj same)
  have apartAlias : (segments (s.fqn i)).head? ≠ some c.publicAlias := by
    rw [head]
    exact fun same => otherAlias (Option.some.inj same)
  have main : s.fqn i ≠ c.internalRoot ∧
      (below? c.internalRoot (s.fqn i) = none ∨ Plain c.publicAlias) := by
    by_cases dotted : '.' ∈ c.internalRoot.toList
    · exact dottedRoot dotted
    · exact (ne_of_head?_ne dotted apartRoot).imp_right .inl
  have byAlias : s.fqn i ≠ c.publicAlias := by
    by_cases dotted : '.' ∈ c.publicAlias.toList
    · exact dottedAlias dotted
    · exact (ne_of_head?_ne dotted apartAlias).1
  obtain ⟨x, resolved, direct, handle⟩ :=
    exists_resolution_publicName tidy file hi main.1 byAlias main.2 apartAlias
  have answer := answers_resolve_publicName tidy.toRootsClosed fits hi short resolved
  refine ⟨x, answer, direct, handle, fun undotted atRoot atAlias => ?_⟩
  have notBelow := (ne_of_head?_ne undotted apartAlias).2
  rw [handle, findSome?_rewritten_eq_none notBelow head atRoot atAlias]
  rfl

theorem resolve_separate_sample : sample.Tidy ∧ (∀ f ∈ sample.files, '/' ∈ f.path.toList) ∧
    sample.Fits ∧ ⟨"builtin", 5⟩ ∈ sample.modules ∧
    (∀ n ∈ sample.modules, n.root = 5 → n.name ≠ "root" ∧ n.name ≠ "std") ∧
    Relation.ReflTransGen (Follows sample.parent?) 5 7 ∧ '.' ∉ "root".toList ∧ '.' ∉ "std".toList ∧
    ({} : Config).Fits (({} : Config).publicName (sample.fqn 7)) ∧
    ∃ x, Answers sample (do resolve {} (({} : Config).publicName (← fullyQualifiedName ⟨7⟩)))
      (.ok (some x)) ∧ x.handle = ⟨7⟩ := by
  have hm : ⟨"builtin", 5⟩ ∈ sample.modules := by decide
  have apart : ∀ n ∈ sample.modules, n.root = 5 → n.name ≠ ({} : Config).internalRoot ∧
      n.name ≠ ({} : Config).publicAlias := by decide
  have within : Relation.ReflTransGen (Follows sample.parent?) 5 7 := .single rfl
  have undotted : '.' ∉ ({} : Config).internalRoot.toList ∧
      '.' ∉ ({} : Config).publicAlias.toList := by decide
  have short : ({} : Config).Fits (({} : Config).publicName (sample.fqn 7)) := by decide
  obtain ⟨x, answer, -, -, back⟩ := resolve_separate tidy_sample orderly_sample.file fits_sample hm
    apart within (fun dotted => absurd dotted undotted.1) (fun dotted => absurd dotted undotted.2)
    short
  exact ⟨tidy_sample, orderly_sample.file, fits_sample, hm, apart, within, undotted.1, undotted.2,
    short, x, answer, back undotted.2 (by decide) (by decide +kernel)⟩

/-- A main module with a member that is named like another module. -/
def shadowing : Snapshot where
  modules := [⟨"root", 0⟩, ⟨"builtin", 2⟩]
  decls := #[
    { name := "root", category := .nameSpace, members := [1] },
    { name := "builtin", parent := some 0, category := .function },
    { name := "builtin", category := .nameSpace }]

/-- A module with a path that has dots. -/
def nested : Snapshot where
  modules := [⟨"root", 0⟩, ⟨"m", 1⟩]
  decls := #[
    { name := "root", category := .nameSpace },
    { name := "m", category := .nameSpace, members := [2] },
    { name := "a", parent := some 1, category := .nameSpace, members := [3] },
    { name := "b", parent := some 2, category := .function }]

theorem tidy_shadowing : shadowing.Tidy := by
  decide

theorem tidy_nested : nested.Tidy := by
  decide

/-- Public names that do not resolve back: that of a module which the main module has a member of
the same name for, a path that is itself the public alias or the internal root, and one below an
internal root with a dot that is shown below an alias with white space in front. -/
theorem resolve_separate_lost :
    (shadowing.Tidy ∧ (∀ n ∈ shadowing.modules, n.root = 2 → n.name ≠ "root" ∧ n.name ≠ "std") ∧
      Answers shadowing (do resolve {} (({} : Config).publicName (← fullyQualifiedName ⟨2⟩)))
        (.ok (some
          { handle := ⟨1⟩, strategy := .direct, spelling := "root.builtin",
            title := "std.builtin" }))) ∧
    nested.Tidy ∧ (∀ n ∈ nested.modules, n.root = 1 → n.name = "m") ∧
    Answers nested (do
        let c : Config := { publicAlias := "m.a" }
        resolve c (c.publicName (← fullyQualifiedName ⟨2⟩)))
      (.ok (some { handle := ⟨0⟩, strategy := .root, spelling := "root", title := "m.a" })) ∧
    Answers nested (do
        let c : Config := { internalRoot := "m.a" }
        resolve c (c.publicName (← fullyQualifiedName ⟨2⟩)))
      (.ok none) ∧
    Answers nested (do
        let c : Config := { internalRoot := "m.a", publicAlias := " x" }
        resolve c (c.publicName (← fullyQualifiedName ⟨3⟩)))
      (.ok none) := by
  have fits : shadowing.Fits ∧ nested.Fits := by decide
  refine ⟨⟨tidy_shadowing, by decide, ?_⟩, tidy_nested, by decide, ?_, ?_, ?_⟩
  · exact answers_resolve_publicName tidy_shadowing.toRootsClosed fits.1 (by decide)
      (by decide) (by decide +kernel)
  all_goals
    exact answers_resolve_publicName tidy_nested.toRootsClosed fits.2 (by decide)
      (by decide) (by decide +kernel)

end Index

end DocIndex
