import DocIndex.Proofs.Index.Answers
import DocIndex.Resolve

/-!
# What a name is resolved to

Over a snapshot, resolving a name is a function of the snapshot, the configuration and the name
alone (`Snapshot.resolution`): what the calls in front of it were does not count, and it never
fails as long as all texts fit the memory (`Index.answers_resolve`).
-/

namespace DocIndex

namespace Snapshot

/-- There are few enough modules, and their names and those of the declarations are short enough,
for the words and slices of an engine. -/
structure Fits (s : Snapshot) : Prop where
  modules : s.modules.length < 2 ^ 32
  moduleName : ∀ m ∈ s.modules, Utf8.Short m.name
  fqn : ∀ i, s.Declares i → Utf8.Short (s.fqn i)

instance (s : Snapshot) : Decidable s.Fits :=
  decidable_of_iff (s.modules.length < 2 ^ 32 ∧ (∀ m ∈ s.modules, Utf8.Short m.name) ∧
      s.Each fun i _ => Utf8.Short (s.fqn i))
    ⟨fun ⟨a, b, h⟩ => ⟨a, b, fun i hi => (exists_decl?_iff.2 hi).elim (h i)⟩,
      fun ⟨a, b, h⟩ => ⟨a, b, fun i _ hd => h i (declares_of_decl? hd)⟩⟩

theorem fits_sample : sample.Fits := by
  decide +kernel

/-- The root of the main module. -/
def mainRoot? (s : Snapshot) (c : Config) : Option UInt32 :=
  ((s.namedModule? c.internalRoot).or (s.namedModule? c.publicAlias)).map (·.root)

theorem mainRoot?_eq {s : Snapshot} (named : ∀ m ∈ s.modules, m.name ≠ "") (c : Config) :
    s.mainRoot? c = ((s.module? c.internalRoot).or (s.module? c.publicAlias)).map (·.root) := by
  rw [mainRoot?, namedModule?_eq named, namedModule?_eq named]

/-- The first of some spellings that leads somewhere. -/
def firstKnown (s : Snapshot) (spellings : List (Strategy × String)) :
    Option (UInt32 × Strategy × String) :=
  spellings.findSome? fun p => (s.lookup p.2).map fun i => (i, p.1, p.2)

theorem firstKnown_append (s : Snapshot) (l l' : List (Strategy × String)) :
    s.firstKnown (l ++ l') = (s.firstKnown l).or (s.firstKnown l') :=
  List.findSome?_append

theorem firstKnown_eq_none_iff {s : Snapshot} {l : List (Strategy × String)} :
    s.firstKnown l = none ↔ ∀ p ∈ l, s.lookup p.2 = none := by
  simp [firstKnown]

theorem firstKnown_cons {s : Snapshot} {spelling : String} {i : UInt32}
    (h : s.lookup spelling = some i) (strategy : Strategy) (l : List (Strategy × String)) :
    s.firstKnown ((strategy, spelling) :: l) = some (i, strategy, spelling) := by
  simp [firstKnown, h]

theorem firstKnown_spec {s : Snapshot} {l : List (Strategy × String)} {i : UInt32}
    {strategy : Strategy} {spelling : String} (h : s.firstKnown l = some (i, strategy, spelling)) :
    (strategy, spelling) ∈ l ∧ s.lookup spelling = some i := by
  obtain ⟨p, hp, found⟩ := List.exists_of_findSome?_eq_some h
  obtain ⟨j, hj, same⟩ := Option.map_eq_some_iff.1 found
  cases same
  exact ⟨hp, hj⟩

/-- What a request for the main module is resolved to. -/
def rootResolution (s : Snapshot) (c : Config) : Option Resolved :=
  (s.mainRoot? c).map fun i =>
    { handle := ⟨i⟩, strategy := .root, spelling := c.internalRoot, title := c.publicAlias }

/-- What a name is resolved to as the path of a source file. -/
def fileResolution (s : Snapshot) (c : Config) (name : String) : Option Resolved :=
  if looksLikeFile name then
    (s.fileRoot? name).map fun i =>
      { handle := ⟨i⟩, strategy := .filePath, spelling := name, title := c.publicName (s.fqn i) }
  else none

/-- What a name is resolved to as a path. -/
def pathResolution (s : Snapshot) (c : Config) (name : String) : Option Resolved :=
  (s.firstKnown (c.candidates name)).map fun (i, strategy, spelling) =>
    { handle := ⟨i⟩, strategy, spelling,
      title := (c.shortTitle? name spelling).getD (c.publicName (s.fqn i)) }

theorem pathResolution_eq {s : Snapshot} {c : Config} {name spelling : String} {i : UInt32}
    {strategy : Strategy} (h : s.firstKnown (c.candidates name) = some (i, strategy, spelling)) :
    s.pathResolution c name =
      some
        { handle := ⟨i⟩, strategy, spelling,
          title := (c.shortTitle? name spelling).getD (c.publicName (s.fqn i)) } := by
  rw [pathResolution, h]
  rfl

/-- What a typed name is resolved to. -/
def resolution (s : Snapshot) (c : Config) (input : String) : Option Resolved :=
  let name := bareName input
  if c.namesRoot name then s.rootResolution c
  else (s.fileResolution c name).or (s.pathResolution c name)

end Snapshot

theorem Config.namesRoot_iff {c : Config} {name : String} : c.namesRoot name = true ↔
    name = "" ∨ name = c.publicAlias ∨ name = c.internalRoot := by
  simp [namesRoot, or_assoc]

/-- The texts that are looked up for a typed name are short enough for an engine. -/
structure Config.Fits (c : Config) (input : String) : Prop where
  name : Utf8.Short (bareName input)
  spelling : ∀ p ∈ c.candidates (bareName input), Utf8.Short p.2

instance (c : Config) (input : String) : Decidable (c.Fits input) :=
  decidable_of_iff (Utf8.Short (bareName input) ∧
      ∀ p ∈ c.candidates (bareName input), Utf8.Short p.2)
    ⟨fun ⟨a, b⟩ => ⟨a, b⟩, fun ⟨a, b⟩ => ⟨a, b⟩⟩

theorem Config.fits_sample : ({} : Config).Fits " ArrayList." := by
  decide +kernel

/-- The spellings that come behind the direct ones. -/
def Config.laterSpellings (c : Config) (path : String) : List (Strategy × String) :=
  (c.guessedSpellings path).map (.submoduleGuess, ·) ++
    (c.commonSpellings path).map (.commonSubmodule, ·)

namespace Index

open Table

variable {s : Snapshot} {c : Config} {name input : String}

theorem answers_probe (closed : s.RootsClosed) {l : List (Strategy × String)}
    (short : ∀ p ∈ l, Utf8.Short p.2) :
    Answers s (probe l)
      (.ok ((s.firstKnown l).map fun (i, strategy, spelling) => (⟨i⟩, strategy, spelling))) := by
  induction l with
  | nil => exact answers_pure s none
  | cons p l ih =>
    rw [List.forall_mem_cons] at short
    refine (answers_findDeclaration closed short.1).bind ?_
    cases found : s.lookup p.2 with
    | none => simpa [Snapshot.firstKnown, found] using ih short.2
    | some i => simpa [Snapshot.firstKnown, found] using answers_pure s _

theorem answers_resolveRoot (closed : s.RootsClosed) (fits : s.Fits) :
    Answers s (resolveRoot c) (.ok (s.rootResolution c)) := by
  have asked := answers_moduleRootNamed fits.modules fits.moduleName closed.toModulesClosed
  unfold resolveRoot
  refine Answers.bind (asked c.internalRoot) ?_
  cases found : s.namedModule? c.internalRoot with
  | none =>
    refine Answers.bind (asked c.publicAlias) ?_
    simpa [Snapshot.rootResolution, Snapshot.mainRoot?, found, Function.comp_def] using
      answers_pure s _
  | some m =>
    refine Answers.bind (answers_pure s _) ?_
    simpa [Snapshot.rootResolution, Snapshot.mainRoot?, found] using answers_pure s _

theorem answers_resolveFile (closed : s.RootsClosed)
    (fqn : ∀ i, s.Declares i → Utf8.Short (s.fqn i)) (short : Utf8.Short name) :
    Answers s (resolveFile c name) (.ok (s.fileResolution c name)) := by
  unfold resolveFile Snapshot.fileResolution
  by_cases file : looksLikeFile name = true
  · rw [if_pos file, if_pos file]
    refine (answers_fileRoot closed short).bind ?_
    cases found : s.fileRoot? name with
    | none => exact answers_pure s none
    | some i =>
      have hi := closed.declares_of_fileRoot? found
      exact (answers_fullyQualifiedName hi (fqn i hi)).bind (answers_pure s _)
  · rw [if_neg file, if_neg file]
    exact answers_pure s none

theorem answers_resolvePath (closed : s.RootsClosed)
    (fqn : ∀ i, s.Declares i → Utf8.Short (s.fqn i))
    (short : ∀ p ∈ c.candidates name, Utf8.Short p.2) :
    Answers s (resolvePath c name) (.ok (s.pathResolution c name)) := by
  refine (answers_probe closed short).bind ?_
  unfold Snapshot.pathResolution
  cases found : s.firstKnown (c.candidates name) with
  | none => exact answers_pure s none
  | some hit =>
    obtain ⟨i, strategy, spelling⟩ := hit
    have hi := closed.declares_of_lookup (Snapshot.firstKnown_spec found).2
    simp only [Option.map_some]
    cases c.shortTitle? name spelling with
    | none =>
      have shown := (answers_fullyQualifiedName hi (fqn i hi)).map c.publicName
      exact shown.bind (answers_pure s _)
    | some title => exact (answers_pure s title).bind (answers_pure s _)

theorem answers_resolve_below (closed : s.RootsClosed)
    (fqn : ∀ i, s.Declares i → Utf8.Short (s.fqn i)) (short : c.Fits input)
    (below : ¬ c.namesRoot (bareName input) = true) :
    Answers s (resolve c input) (.ok (s.resolution c input)) := by
  unfold resolve Snapshot.resolution
  rw [if_neg below, if_neg below]
  refine (answers_resolveFile closed fqn short.name).bind ?_
  cases s.fileResolution c (bareName input) with
  | none => exact answers_resolvePath closed fqn short.spelling
  | some r => exact answers_pure s _

/-- Resolving a name answers what the snapshot says, whatever was asked before. -/
theorem answers_resolve (closed : s.RootsClosed) (fits : s.Fits) (short : c.Fits input) :
    Answers s (resolve c input) (.ok (s.resolution c input)) := by
  by_cases main : c.namesRoot (bareName input) = true
  · unfold resolve Snapshot.resolution
    rw [if_pos main, if_pos main]
    exact answers_resolveRoot closed fits
  · exact answers_resolve_below closed fits.fqn short main

end Index

end DocIndex
