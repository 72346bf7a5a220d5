import DocIndex.Proofs.Index.Listing

/-!
# Names that resolve back

Where names cannot be taken for file paths (`Snapshot.Orderly`), the names that users are shown
resolve back. The public form of a fully qualified name is found at once, by its own declaration
(`Orderly.resolution_publicName`). A short title leads through the same spellings as the name it
was made from, save for that name itself, which a short title is never made for
(`Orderly.handle_resolution_shortTitle`).
-/

namespace DocIndex

open Dotted

/-- A clean path is left as it is. -/
theorem bareName_of_clean {path : String} (h : Clean path) : bareName path = path := by
  have trimmed : Text.trim path.toList = path.toList := by
    refine Text.stripWhile_eq_self (fun c r hp => ?_) fun c r hp => ?_
    · exact h.isBlank_eq_false (by simp [hp])
    · exact h.isBlank_eq_false (by simp [hp])
  have bare : Text.stripWhile (· == '.') path.toList = path.toList := by
    refine Text.stripWhile_eq_self (fun c r hp => ?_) fun c r hp => ?_
    · simpa using h.ne_at_start hp
    · simpa using h.ne_at_end hp
  rw [bareName, trimmed, bare, String.ofList_toList]

namespace Config

variable {c : Config} {name path rest spelling title : String}

/-! ## Anchors -/

/-- The spellings of a path below one of the roots. -/
def pathSpellings (c : Config) (path : String) : List (Strategy × String) :=
  [(.direct, c.atRoot path), (.direct, c.atAlias path)] ++ c.laterSpellings path

theorem exists_front_of_mem {p : Strategy × String} (h : p ∈ c.pathSpellings path) :
    ∃ front, p.2 = front ++ "." ++ path := by
  simp only [pathSpellings, laterSpellings, guessedSpellings, commonSpellings, List.mem_append,
    List.mem_cons, List.not_mem_nil, or_false, List.mem_map] at h
  rcases h with (rfl | rfl) | ⟨a, ha, rfl⟩ | ⟨a, ⟨submodule, -, rfl⟩, rfl⟩
  · exact ⟨c.internalRoot, rfl⟩
  · exact ⟨c.publicAlias, rfl⟩
  · split at ha
    · simp only [List.mem_cons, List.not_mem_nil, or_false] at ha
      rcases ha with rfl | rfl
      · exact ⟨c.internalRoot ++ "." ++ snakeCase path, by simp [atRoot, String.append_assoc]⟩
      · exact ⟨c.publicAlias ++ "." ++ snakeCase path, by simp [atAlias, String.append_assoc]⟩
    · cases ha
  · exact ⟨c.internalRoot ++ "." ++ submodule, by simp [atRoot, String.append_assoc]⟩

theorem candidates_of_pathOf? (h : c.pathOf? name = some path) :
    (name = path ∧ c.candidates name =
      [(.direct, c.atRoot path), (.direct, c.atAlias path)] ++
        (.direct, path) :: c.laterSpellings path) ∨
    (name = c.atAlias path ∧ c.candidates name = c.pathSpellings path) := by
  unfold pathOf? at h
  unfold candidates directSpellings pathOf?
  cases anchored : c.anchor name with
  | unprefixed =>
    rw [anchored] at h
    cases h
    exact .inl ⟨rfl, rfl⟩
  | belowAlias path' =>
    rw [anchored] at h
    cases h
    have hname : name = c.atAlias path := by
      unfold anchor at anchored
      split at anchored
      · cases anchored
      · next hp =>
        cases anchored
        exact below?_eq_some_iff.1 hp
      · cases anchored
    refine .inr ⟨hname, ?_⟩
    rw [pathSpellings, ← hname]
    rfl
  | belowRoot =>
    rw [anchored] at h
    cases h

/-- Where a name asks for a path, the first spelling of it is the path below the internal root. -/
theorem candidates_eq_cons (h : c.pathOf? name = some path) :
    ∃ others, c.candidates name = (.direct, c.atRoot path) :: others := by
  rcases candidates_of_pathOf? h with ⟨-, listed⟩ | ⟨-, listed⟩
  · exact ⟨_, listed⟩
  · exact ⟨_, listed⟩

theorem anchor_atRoot (c : Config) (rest : String) : c.anchor (c.atRoot rest) = .belowRoot := by
  rw [anchor, atRoot, below?_append]

theorem candidates_atRoot (c : Config) (rest : String) :
    c.candidates (c.atRoot rest) = [(.direct, c.atRoot rest)] := by
  rw [candidates, directSpellings, pathOf?, anchor_atRoot]
  rfl

theorem shortTitle?_atRoot (c : Config) (rest spelling : String) :
    c.shortTitle? (c.atRoot rest) spelling = none := by
  rw [shortTitle?, pathOf?, anchor_atRoot]

theorem anchor_atAlias (plainAlias : Plain c.publicAlias) (plainRoot : Plain c.internalRoot)
    (distinct : c.publicAlias ≠ c.internalRoot) (path : String) :
    c.anchor (c.atAlias path) = .belowAlias path := by
  have notBelow : below? c.internalRoot (c.atAlias path) = none := by
    rw [Option.eq_none_iff_forall_ne_some]
    intro rest h
    exact distinct (plainAlias.eq_of_append_eq plainRoot (below?_eq_some_iff.1 h))
  rw [anchor, notBelow, atAlias, below?_append]

theorem pathOf?_atAlias (plainAlias : Plain c.publicAlias) (plainRoot : Plain c.internalRoot)
    (distinct : c.publicAlias ≠ c.internalRoot) (path : String) :
    c.pathOf? (c.atAlias path) = some path := by
  rw [pathOf?, anchor_atAlias plainAlias plainRoot distinct]

theorem shortTitle?_eq_some_iff : c.shortTitle? name spelling = some title ↔
    ∃ path, c.pathOf? name = some path ∧ '.' ∉ path.toList ∧ c.isAnchored spelling = true ∧
      c.atAlias path = title := by
  unfold shortTitle?
  cases c.pathOf? name with
  | none => simp
  | some path => simp [isSingle_iff, and_assoc]

theorem dot_mem_of_isAnchored (h : c.isAnchored spelling = true) : '.' ∈ spelling.toList := by
  rw [isAnchored, Bool.or_eq_true, Option.isSome_iff_exists, Option.isSome_iff_exists] at h
  rcases h with ⟨rest, h⟩ | ⟨rest, h⟩
  · rw [below?_eq_some_iff.1 h, toList_dotted]
    simp
  · rw [below?_eq_some_iff.1 h, toList_dotted]
    simp

theorem publicName_atRoot (plain : Plain c.internalRoot) (rest : String) :
    c.publicName (c.atRoot rest) = c.atAlias rest := by
  rw [publicName, if_neg fun h => plain.ne_append h.symm, atRoot, below?_append]
  rfl

end Config

namespace Snapshot

/-- A tidy snapshot whose file paths have slashes, under a configuration whose roots have plain
names: none of its names can be taken for a file path. -/
structure Orderly (s : Snapshot) (c : Config) : Prop where
  tidy : s.Tidy
  file : ∀ f ∈ s.files, '/' ∈ f.path.toList
  publicAlias : Plain c.publicAlias
  internalRoot : Plain c.internalRoot

theorem orderly_sample : sample.Orderly {} :=
  ⟨tidy_sample, by decide +kernel, by decide +kernel, by decide +kernel⟩

variable {s : Snapshot} {c : Config} {i : UInt32} {name path rest input spelling title : String}
  {strategy : Strategy}

/-- The spelling that was found is still found without another one. -/
theorem firstKnown_erase {front back : List (Strategy × String)} {strategy' : Strategy}
    (h : s.firstKnown (front ++ (strategy', path) :: back) = some (i, strategy, spelling))
    (other : spelling ≠ path) :
    s.firstKnown (front ++ back) = some (i, strategy, spelling) := by
  rw [firstKnown_append] at h ⊢
  cases hf : s.firstKnown front with
  | some hit =>
    rw [hf] at h
    exact h
  | none =>
    rw [hf, Option.none_or] at h
    rw [Option.none_or]
    cases hp : s.lookup path with
    | none => simpa [firstKnown, hp] using h
    | some j =>
      rw [firstKnown_cons hp] at h
      cases h
      exact absurd rfl other

/-- A clean path that does not stand for the main module is resolved by its spellings. -/
theorem resolution_of_clean (file : ∀ f ∈ s.files, '/' ∈ f.path.toList) (h : Clean path)
    (other : ¬ c.namesRoot path = true) : s.resolution c path = s.pathResolution c path := by
  have unknown : s.fileRoot? path = none := by
    rw [Option.eq_none_iff_forall_ne_some]
    intro i hi
    obtain ⟨f, hf, rfl, -⟩ := fileRoot?_spec hi
    exact h.slash_not_mem (file f hf)
  have noFile : s.fileResolution c path = none := by
    rw [fileResolution, unknown]
    split <;> rfl
  rw [resolution, bareName_of_clean h, if_neg other, noFile, Option.none_or]

namespace Orderly

/-- A clean path of more than one segment is resolved by its spellings. -/
theorem resolution_dotted (o : s.Orderly c) {a b : String} (h : Clean (a ++ "." ++ b)) :
    s.resolution c (a ++ "." ++ b) = s.pathResolution c (a ++ "." ++ b) := by
  refine resolution_of_clean o.file h fun main => ?_
  rcases Config.namesRoot_iff.1 main with h | h | h
  · simpa using congrArg String.toList h
  · exact o.publicAlias.ne_append h.symm
  · exact o.internalRoot.ne_append h.symm

/-- The alias stands for the main module. -/
theorem resolution_publicAlias (o : s.Orderly c) :
    s.resolution c c.publicAlias = s.rootResolution c := by
  rw [resolution, bareName_of_clean o.publicAlias.clean,
    if_pos (Config.namesRoot_iff.2 (.inr (.inl rfl)))]

/-- What is named like the internal root is the root of the main module. -/
theorem mainRoot?_of_fqn (o : s.Orderly c) (hi : s.Declares i) (h : s.fqn i = c.internalRoot) :
    s.mainRoot? c = some i := by
  obtain ⟨k, rest, hk, root, hnames, walk⟩ := o.tidy.exists_walk hi
  rw [← o.tidy.segments_fqn hi, h, o.internalRoot.segments_eq] at hnames
  obtain ⟨hname, rfl⟩ := List.cons.inj hnames
  obtain rfl : k = i := by simpa using walk
  obtain ⟨m, hm, hroot⟩ := o.tidy.module?_nameOf hk root
  have named := o.tidy.moduleName_ne
  rw [mainRoot?_eq named, hname, hm, Option.some_or, Option.map_some, hroot]

/-! ## Public names -/

theorem clean_atAlias (o : s.Orderly c) (hi : s.Declares i) (below : s.fqn i = c.atRoot rest) :
    Clean (c.atAlias rest) := by
  have clean := o.tidy.clean_fqn hi
  rw [below] at clean
  exact clean_append.2 ⟨o.publicAlias.clean, (clean_append.1 clean).2⟩

/-- The public name of a declaration below the main module resolves to it at once. -/
theorem resolution_publicName (o : s.Orderly c) (hi : s.Declares i)
    (below : s.fqn i = c.atRoot rest) :
    s.resolution c (c.publicName (s.fqn i)) =
      some
        { handle := ⟨i⟩, strategy := .direct, spelling := s.fqn i,
          title := c.publicName (s.fqn i) } := by
  have known : s.lookup (c.atRoot rest) = some i := by rw [← below, o.tidy.lookup_fqn hi]
  have shown : c.publicName (c.atRoot rest) = c.atAlias rest :=
    Config.publicName_atRoot o.internalRoot rest
  rw [below, shown]
  refine (o.resolution_dotted (o.clean_atAlias hi below)).trans ?_
  by_cases same : c.publicAlias = c.internalRoot
  · have atRoot : c.atAlias rest = c.atRoot rest := by rw [Config.atAlias, Config.atRoot, same]
    have found := firstKnown_cons known .direct []
    rw [← Config.candidates_atRoot] at found
    show s.pathResolution c (c.atAlias rest) = _
    rw [atRoot, pathResolution_eq found, Config.shortTitle?_atRoot, below, shown, atRoot]
    rfl
  · have path := Config.pathOf?_atAlias o.publicAlias o.internalRoot same rest
    obtain ⟨others, listed⟩ := Config.candidates_eq_cons path
    have found : s.firstKnown (c.candidates (c.atAlias rest)) =
        some (i, .direct, c.atRoot rest) := by
      rw [listed]
      exact firstKnown_cons known .direct others
    have title : (c.shortTitle? (c.atAlias rest) (c.atRoot rest)).getD (c.atAlias rest) =
        c.atAlias rest := by
      rw [Config.shortTitle?, path]
      simp only
      split <;> rfl
    show s.pathResolution c (c.atAlias rest) = _
    rw [pathResolution_eq found, below, shown, title]

/-- The public name of a declaration in the main module resolves to it. -/
theorem handle_resolution_publicName (o : s.Orderly c) (hi : s.Declares i)
    (within : s.fqn i = c.internalRoot ∨ ∃ rest, s.fqn i = c.atRoot rest) :
    (s.resolution c (c.publicName (s.fqn i))).map (·.handle) = some ⟨i⟩ := by
  rcases within with main | ⟨rest, below⟩
  · have shown : c.publicName (s.fqn i) = c.publicAlias := by rw [Config.publicName, if_pos main]
    rw [shown, o.resolution_publicAlias, rootResolution, o.mainRoot?_of_fqn hi main]
    rfl
  · rw [o.resolution_publicName hi below]
    rfl

/-! ## Titles -/

/-- A short title leads to what the name was resolved to. -/
theorem handle_resolution_shortTitle (o : s.Orderly c) (distinct : c.publicAlias ≠ c.internalRoot)
    (found : s.firstKnown (c.candidates name) = some (i, strategy, spelling))
    (short : c.shortTitle? name spelling = some title) :
    (s.resolution c title).map (·.handle) = some ⟨i⟩ := by
  obtain ⟨path, asked, single, anchored, rfl⟩ := Config.shortTitle?_eq_some_iff.1 short
  have other : spelling ≠ path := by
    rintro rfl
    exact single (Config.dot_mem_of_isAnchored anchored)
  -- Whatever form the name had, the spelling is one of those that the title leads through.
  have found' : s.firstKnown (c.pathSpellings path) = some (i, strategy, spelling) := by
    rcases Config.candidates_of_pathOf? asked with ⟨-, listed⟩ | ⟨-, listed⟩
    · rw [listed] at found
      exact firstKnown_erase found other
    · rwa [listed] at found
  obtain ⟨hmem, known⟩ := firstKnown_spec found'
  obtain ⟨front, rfl⟩ := Config.exists_front_of_mem hmem
  have clean : Clean (c.atAlias path) :=
    clean_append.2 ⟨o.publicAlias.clean, (clean_append.1 (o.tidy.clean_of_lookup known)).2⟩
  have listed : c.candidates (c.atAlias path) = c.pathSpellings path := by
    have asked' := Config.pathOf?_atAlias o.publicAlias o.internalRoot distinct path
    rcases Config.candidates_of_pathOf? asked' with ⟨same, -⟩ | ⟨-, listed⟩
    · refine absurd ?_ single
      rw [← same]
      simp [Config.atAlias]
    · exact listed
  rw [← listed] at found'
  rw [Config.atAlias, o.resolution_dotted clean, ← Config.atAlias, pathResolution_eq found']
  rfl

/-- The title of what a name is resolved to leads to the same declaration. -/
theorem handle_resolution_title (o : s.Orderly c) (distinct : c.publicAlias ≠ c.internalRoot)
    {r : Resolved} (h : s.resolution c input = some r)
    (within : s.fqn r.handle.index = c.internalRoot ∨
      ∃ rest, s.fqn r.handle.index = c.atRoot rest) :
    (s.resolution c r.title).map (·.handle) = some r.handle := by
  rw [resolution] at h
  by_cases main : c.namesRoot (bareName input) = true
  · rw [if_pos main] at h
    obtain ⟨i, hi, rfl⟩ := Option.map_eq_some_iff.1 h
    rw [o.resolution_publicAlias, h]
    rfl
  · rw [if_neg main, Option.or_eq_some_iff] at h
    rcases h with file | ⟨-, path⟩
    · rw [fileResolution] at file
      split at file
      · obtain ⟨i, hi, rfl⟩ := Option.map_eq_some_iff.1 file
        exact o.handle_resolution_publicName (o.tidy.declares_of_fileRoot? hi) within
      · cases file
    · obtain ⟨⟨i, strategy, spelling⟩, found, rfl⟩ := Option.map_eq_some_iff.1 path
      have hi := o.tidy.declares_of_lookup (firstKnown_spec found).2
      cases short : c.shortTitle? (bareName input) spelling with
      | none =>
        simp only [short, Option.getD_none]
        exact o.handle_resolution_publicName hi within
      | some title =>
        simp only [short, Option.getD_some]
        exact o.handle_resolution_shortTitle distinct found short

end Orderly

end Snapshot

namespace Index

open Snapshot Table

variable {s : Snapshot} {c : Config} {i : UInt32} {rest input : String}

/-- What a listing gives as the path of a declaration below the main module resolves back to that
declaration, at once and under its own name. -/
theorem resolve_listed (o : s.Orderly c) (fits : s.Fits) (hi : s.Declares i)
    (below : s.fqn i = c.atRoot rest) (short : c.Fits (c.publicName (s.fqn i))) :
    Answers s (do resolve c (c.publicName (← fullyQualifiedName ⟨i⟩)))
        (.ok (some
          { handle := ⟨i⟩, strategy := .direct, spelling := s.fqn i,
            title := c.publicName (s.fqn i) })) ∧
      (∀ parent filter, Gives s (listChildren c parent filter) fun members =>
        ∀ m ∈ members, m.path = c.publicName (s.fqn m.handle.index)) ∧
      ∀ filter, Gives s (listRoot c filter) fun members =>
        ∀ m ∈ members, m.path = c.publicName (s.fqn m.handle.index) := by
  have closed : s.RootsClosed := o.tidy.toRootsClosed
  have shortAlias : Utf8.Short c.publicAlias := by
    have name := short.name
    rw [below, Config.publicName_atRoot o.internalRoot,
      bareName_of_clean (o.clean_atAlias hi below)] at name
    exact name.of_append.of_append
  refine ⟨?_, fun parent filter => gives_listChildren fits parent filter,
    fun filter => gives_listRoot closed fits shortAlias filter⟩
  have found := answers_resolve closed fits short
  rw [o.resolution_publicName hi below] at found
  exact (answers_fullyQualifiedName hi (fits.fqn i hi)).bind found

theorem resolve_listed_sample : sample.Orderly {} ∧ sample.Fits ∧
    sample.fqn 6 = ({} : Config).atRoot "array_list.ArrayList" ∧
      Answers sample (do resolve {} (({} : Config).publicName (← fullyQualifiedName ⟨6⟩)))
        (.ok (some
          { handle := ⟨6⟩, strategy := .direct, spelling := "root.array_list.ArrayList",
            title := "std.array_list.ArrayList" })) := by
  have below : sample.fqn 6 = ({} : Config).atRoot "array_list.ArrayList" := by decide +kernel
  have short : ({} : Config).Fits (({} : Config).publicName (sample.fqn 6)) := by decide +kernel
  have shown : ({} : Config).publicName (sample.fqn 6) = "std.array_list.ArrayList" := by
    decide +kernel
  have spelt : sample.fqn 6 = "root.array_list.ArrayList" := below
  have back := (resolve_listed orderly_sample fits_sample (by decide) below short).1
  rw [shown, spelt] at back
  exact ⟨orderly_sample, fits_sample, below, back⟩

/-- The title of what a name is resolved to resolves to the same declaration, if that is in the main
module. -/
theorem resolve_title (o : s.Orderly c) (distinct : c.publicAlias ≠ c.internalRoot)
    (fits : s.Fits) (short : c.Fits input) {m : Machine Table} (serves : Serves s m) {r : Resolved}
    (h : (resolve c input m).1 = .ok (some r))
    (within : s.fqn r.handle.index = c.internalRoot ∨
      ∃ rest, s.fqn r.handle.index = c.atRoot rest)
    (shortTitle : c.Fits r.title) :
    Answers s ((·.map (·.handle)) <$> resolve c r.title) (.ok (some r.handle)) := by
  have closed : s.RootsClosed := o.tidy.toRootsClosed
  have found : s.resolution c input = some r := by
    rw [(answers_resolve closed fits short m serves).1] at h
    exact Except.ok.inj h
  have back := (answers_resolve closed fits shortTitle).map fun r => r.map (·.handle)
  rwa [o.handle_resolution_title distinct found within] at back

/-- The declaration was guessed, and its title is shorter than its public name. -/
theorem resolve_title_sample : sample.Orderly {} ∧ sample.Fits ∧
    (resolve {} " ArrayList." (start sample)).1 =
        .ok (some
          { handle := ⟨6⟩, strategy := .submoduleGuess, spelling := "root.array_list.ArrayList",
            title := "std.ArrayList" }) ∧
      Answers sample ((·.map (·.handle)) <$> resolve {} "std.ArrayList") (.ok (some ⟨6⟩)) := by
  have found : sample.resolution {} " ArrayList." =
      some
        { handle := ⟨6⟩, strategy := .submoduleGuess, spelling := "root.array_list.ArrayList",
          title := "std.ArrayList" } := by
    decide +kernel
  have resolved := (answers_resolve orderly_sample.tidy.toRootsClosed fits_sample
    Config.fits_sample _ (serves_start sample)).1
  rw [found] at resolved
  have below : sample.fqn 6 = ({} : Config).atRoot "array_list.ArrayList" := by decide +kernel
  have shortTitle : ({} : Config).Fits "std.ArrayList" := by decide +kernel
  have back := resolve_title orderly_sample (by decide) fits_sample Config.fits_sample
    (serves_start sample) resolved (.inr ⟨_, below⟩) shortTitle
  exact ⟨orderly_sample, fits_sample, resolved, back⟩

end Index

end DocIndex
