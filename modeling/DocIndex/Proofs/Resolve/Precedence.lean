import DocIndex.Proofs.Resolve.Resolution

/-!
# The documented precedence

`Snapshot.documented` states what a typed name stands for as users are told: the main module, a
source file, or the first known spelling of a list that always has the guesses in it. Resolving
leaves a guess out if the snake-case form of the item is the item itself. That changes nothing,
since such a guess is known only if a direct spelling is (`firstKnown_spellings`). The main module
is another matter, as modules are only enumerated up to the first one without a name
(`resolve_documented_iff`).
-/

namespace DocIndex

/-! ## What users are told -/

namespace Config

variable (c : Config)

/-- The spellings that are guessed for a path below the root: a single item inside the submodule
named after it, then the path in each of the common submodules. -/
def documentedGuesses (path : String) : List (Strategy × String) :=
  (if '.' ∈ path.toList then []
    else
      [(.submoduleGuess, c.internalRoot ++ "." ++ (snakeCase path ++ "." ++ path)),
        (.submoduleGuess, c.publicAlias ++ "." ++ (snakeCase path ++ "." ++ path))]) ++
    c.submodules.map fun submodule =>
      (.commonSubmodule, c.internalRoot ++ "." ++ (submodule ++ "." ++ path))

/-- The spellings of a name in their order. -/
def documentedSpellings (name : String) : List (Strategy × String) :=
  match Dotted.below? c.internalRoot name, Dotted.below? c.publicAlias name with
  | some _, _ => [(.direct, name)]
  | none, some path =>
    [(.direct, c.internalRoot ++ "." ++ path), (.direct, name)] ++ c.documentedGuesses path
  | none, none =>
    [(.direct, c.internalRoot ++ "." ++ name), (.direct, c.publicAlias ++ "." ++ name),
      (.direct, name)] ++ c.documentedGuesses name

end Config

namespace Snapshot

/-- The root of the module named like the internal root, else of the one named like the alias. -/
def documentedMain? (s : Snapshot) (c : Config) : Option UInt32 :=
  ((s.module? c.internalRoot).or (s.module? c.publicAlias)).map (·.root)

/-- The source file that a name is the path of, if it has a slash or the ending of one. -/
def documentedFile? (s : Snapshot) (name : String) : Option UInt32 :=
  if '/' ∈ name.toList ∨ ".zig".toList <:+ name.toList then s.fileRoot? name else none

/-- The declaration that a typed name stands for, with the strategy and the spelling. -/
def documented (s : Snapshot) (c : Config) (input : String) : Option (Handle × Strategy × String) :=
  let name := bareName input
  if name = "" ∨ name = c.publicAlias ∨ name = c.internalRoot then
    (s.documentedMain? c).map fun i => (⟨i⟩, .root, c.internalRoot)
  else
    match s.documentedFile? name with
    | some i => some (⟨i⟩, .filePath, name)
    | none =>
      (c.documentedSpellings name).findSome? fun p =>
        (s.lookup p.2).map fun i => (⟨i⟩, p.1, p.2)

end Snapshot

/-- What was found and how, without the title. -/
def Resolved.found (r : Resolved) : Handle × Strategy × String :=
  (r.handle, r.strategy, r.spelling)

/-! ## The guess that is left out -/

namespace Snapshot

variable {s : Snapshot} {c : Config} {name path input : String}

/-- Spellings are not missed that are known only if an earlier one is. -/
theorem firstKnown_skip {front mid back : List (Strategy × String)}
    (h : ∀ p ∈ mid, (s.lookup p.2).isSome → ∃ q ∈ front, (s.lookup q.2).isSome) :
    s.firstKnown (front ++ (mid ++ back)) = s.firstKnown (front ++ back) := by
  rw [firstKnown_append, firstKnown_append, firstKnown_append]
  cases hf : s.firstKnown front with
  | some hit => rfl
  | none =>
    have unknown := firstKnown_eq_none_iff.1 hf
    have skipped : s.firstKnown mid = none := by
      refine firstKnown_eq_none_iff.2 fun p hp => ?_
      by_contra known
      obtain ⟨q, hq, hk⟩ := h p hp (Option.isSome_iff_ne_none.2 known)
      rw [unknown q hq] at hk
      cases hk
    rw [skipped, Option.none_or, Option.none_or]

theorem lookup_guess_isSome {root : String}
    (h : (s.lookup (root ++ "." ++ (path ++ "." ++ path))).isSome) :
    (s.lookup (root ++ "." ++ path)).isSome := by
  have nested : root ++ "." ++ (path ++ "." ++ path) = root ++ "." ++ path ++ "." ++ path := by
    simp only [String.append_assoc]
  rw [nested] at h
  exact lookup_isSome_of_append h

/-- Behind the direct spellings it does not matter that a guess is left out. -/
theorem firstKnown_guesses {front : List (Strategy × String)}
    (atRoot : (.direct, c.atRoot path) ∈ front) (atAlias : (.direct, c.atAlias path) ∈ front) :
    s.firstKnown (front ++ c.documentedGuesses path) =
      s.firstKnown (front ++ c.laterSpellings path) := by
  have common : (c.commonSpellings path).map (Strategy.commonSubmodule, ·) =
      c.submodules.map fun submodule =>
        (.commonSubmodule, c.internalRoot ++ "." ++ (submodule ++ "." ++ path)) := by
    rw [Config.commonSpellings, List.map_map]
    rfl
  unfold Config.documentedGuesses Config.laterSpellings Config.guessedSpellings
  rw [common]
  by_cases dotted : '.' ∈ path.toList
  · have multiple : Dotted.isSingle path = false := by
      simpa [← Bool.not_eq_true, Dotted.isSingle_iff] using dotted
    rw [if_pos dotted, multiple]
    rfl
  · have single : Dotted.isSingle path = true := Dotted.isSingle_iff.2 dotted
    rw [if_neg dotted, single]
    by_cases same : snakeCase path = path
    · simp only [same, ne_eq, not_true, decide_false, Bool.and_false, Bool.false_eq_true, if_false,
        List.map_nil, List.nil_append]
      refine firstKnown_skip fun p hp known => ?_
      simp only [List.mem_cons, List.not_mem_nil, or_false] at hp
      rcases hp with rfl | rfl
      · exact ⟨_, atRoot, lookup_guess_isSome known⟩
      · exact ⟨_, atAlias, lookup_guess_isSome known⟩
    · simp only [same, ne_eq, not_false_eq_true, decide_true, Bool.and_true, if_true]
      rfl

theorem firstKnown_spellings (s : Snapshot) (c : Config) (name : String) :
    s.firstKnown (c.documentedSpellings name) = s.firstKnown (c.candidates name) := by
  unfold Config.documentedSpellings Config.candidates Config.directSpellings Config.pathOf?
    Config.anchor
  cases Dotted.below? c.internalRoot name with
  | some _ => rfl
  | none =>
    cases hp : Dotted.below? c.publicAlias name with
    | none => exact firstKnown_guesses (by simp [Config.atRoot]) (by simp [Config.atAlias])
    | some path =>
      have hname : name = c.atAlias path := Dotted.below?_eq_some_iff.1 hp
      exact firstKnown_guesses (by simp [Config.atRoot]) (by simp [hname])

/-! ## Stages -/

theorem looksLikeFile_iff : looksLikeFile name = true ↔
    '/' ∈ name.toList ∨ ".zig".toList <:+ name.toList := by
  simp only [looksLikeFile, Bool.or_eq_true, List.contains_iff_mem, List.isSuffixOf_iff_suffix]

theorem found_rootResolution (s : Snapshot) (c : Config) :
    (s.rootResolution c).map (·.found) =
      (s.mainRoot? c).map fun i => (⟨i⟩, .root, c.internalRoot) := by
  rw [rootResolution, Option.map_map]
  rfl

theorem found_fileResolution (s : Snapshot) (c : Config) (name : String) :
    (s.fileResolution c name).map (·.found) =
      (s.documentedFile? name).map fun i => (⟨i⟩, .filePath, name) := by
  unfold fileResolution documentedFile?
  by_cases file : looksLikeFile name = true
  · rw [if_pos file, if_pos (looksLikeFile_iff.1 file), Option.map_map]
    rfl
  · rw [if_neg file, if_neg fun h => file (looksLikeFile_iff.2 h)]
    rfl

theorem found_pathResolution (s : Snapshot) (c : Config) (name : String) :
    (s.pathResolution c name).map (·.found) =
      (c.documentedSpellings name).findSome? fun p =>
        (s.lookup p.2).map fun i => (⟨i⟩, p.1, p.2) := by
  rw [pathResolution, Option.map_map, ← firstKnown_spellings, firstKnown, List.map_findSome?]
  simp only [Option.map_map, Function.comp_def]
  rfl

/-- What is found is what users are told, unless the main module is asked for and another one is
found. -/
theorem found_resolution_eq_iff : (s.resolution c input).map (·.found) = s.documented c input ↔
    (c.namesRoot (bareName input) = true → s.mainRoot? c = s.documentedMain? c) := by
  unfold resolution documented
  by_cases main : c.namesRoot (bareName input) = true
  · rw [if_pos main, if_pos (Config.namesRoot_iff.1 main), found_rootResolution]
    have inj : Function.Injective fun i : UInt32 =>
        ((⟨i⟩, .root, c.internalRoot) : Handle × Strategy × String) :=
      fun i j h => Handle.mk.inj (Prod.mk.inj h).1
    rw [(Option.map_injective inj).eq_iff]
    exact ⟨fun h _ => h, fun h => h main⟩
  · rw [if_neg main, if_neg fun h => main (Config.namesRoot_iff.2 h)]
    refine iff_of_true ?_ fun h => absurd h main
    have file := found_fileResolution s c (bareName input)
    cases hf : s.documentedFile? (bareName input) with
    | some i =>
      obtain ⟨r, hr, hfound⟩ := Option.map_eq_some_iff.1 (file.trans (by rw [hf]; rfl))
      rw [hr]
      exact congrArg some hfound
    | none =>
      have unknown : s.fileResolution c (bareName input) = none := by
        simpa [hf] using file
      rw [unknown, Option.none_or, found_pathResolution]

end Snapshot

namespace Index

variable {s : Snapshot} {c : Config} {input : String}

/-- Resolving finds what users are told exactly if no request for the main module is misled by the
modules being enumerated up to the first one without a name, so always if all modules have names. -/
theorem resolve_documented_iff (closed : s.RootsClosed) (fits : s.Fits) (short : c.Fits input) :
    (Answers s ((·.map (·.found)) <$> resolve c input) (.ok (s.documented c input)) ↔
        (c.namesRoot (bareName input) = true → s.mainRoot? c = s.documentedMain? c)) ∧
      ((∀ m ∈ s.modules, m.name ≠ "") →
        Answers s ((·.map (·.found)) <$> resolve c input) (.ok (s.documented c input))) := by
  have found := (answers_resolve closed fits short).map fun r => r.map (·.found)
  have exact_iff : Answers s ((·.map (·.found)) <$> resolve c input) (.ok (s.documented c input)) ↔
      (c.namesRoot (bareName input) = true → s.mainRoot? c = s.documentedMain? c) := by
    rw [← Snapshot.found_resolution_eq_iff]
    constructor
    · intro h
      have same := (found _ (Table.serves_start s)).1.symm.trans (h _ (Table.serves_start s)).1
      exact Except.ok.inj same
    · intro h
      rwa [h] at found
  exact ⟨exact_iff, fun named => exact_iff.2 fun _ => Snapshot.mainRoot?_eq named c⟩

theorem resolve_documented_sample : Snapshot.sample.Tidy ∧ Snapshot.sample.Fits ∧
    ({} : Config).Fits " ArrayList." ∧
      Answers Snapshot.sample ((·.map (·.found)) <$> resolve {} " ArrayList.")
        (.ok (some (⟨6⟩, .submoduleGuess, "root.array_list.ArrayList"))) := by
  have told : Snapshot.sample.documented {} " ArrayList." =
      some (⟨6⟩, .submoduleGuess, "root.array_list.ArrayList") := by decide +kernel
  have found := (resolve_documented_iff Snapshot.tidy_sample.toRootsClosed Snapshot.fits_sample
    Config.fits_sample).2 (by decide +kernel)
  rw [told] at found
  exact ⟨Snapshot.tidy_sample, Snapshot.fits_sample, Config.fits_sample, found⟩

/-- A snapshot whose main module stands behind one without a name. -/
def behindNameless : Snapshot where
  modules := [⟨"", 0⟩, ⟨"root", 0⟩]
  decls := #[{ name := "root", category := .nameSpace }]

/-- Behind a module without a name the main module is not found, though there is one and its name
can be looked up. -/
theorem resolve_behind_nameless :
    behindNameless.documented {} "" = some (⟨0⟩, .root, "root") ∧
      behindNameless.lookup "root" = some 0 ∧
      Answers behindNameless ((·.map (·.found)) <$> resolve {} "") (.ok none) := by
  have closed : behindNameless.RootsClosed := by decide +kernel
  have fits : behindNameless.Fits := by decide +kernel
  have short : ({} : Config).Fits "" := by decide +kernel
  have missed : behindNameless.resolution {} "" = none := by decide +kernel
  have found := (answers_resolve closed fits short).map fun r => r.map (·.found)
  rw [missed] at found
  exact ⟨by decide +kernel, by decide +kernel, found⟩

end Index

end DocIndex
