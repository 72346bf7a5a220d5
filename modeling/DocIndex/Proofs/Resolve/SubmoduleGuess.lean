import DocIndex.Proofs.Resolve.Precedence
import DocIndex.Proofs.Resolve.RoundTrip
import DocIndex.Proofs.Text.SnakeCase

/-!
# Items in submodules named after them

An item that is named like its submodule, with capitals in the place of underscores, is found there
by its name alone (`exists_resolution_guess`), as the snake-case form of its name is the name of the
submodule (`snakeCase_camelCase`).
-/

namespace DocIndex

open Dotted

variable {s : Snapshot} {c : Config} {input name : String} {words : List Text.LowerWord}
  {i : UInt32}

/-- A word as a text. -/
def Text.LowerWord.text (w : LowerWord) : String :=
  String.ofList w.chars

/-- The words with capitals, one behind the other. -/
def camelCase (words : List Text.LowerWord) : String :=
  String.ofList (words.flatMap (·.capitalized))

theorem snakeCase_camelCase (ne : words ≠ []) :
    snakeCase (camelCase words) = "_".intercalate (words.map (·.text)) := by
  rw [snakeCase, camelCase, String.toList_ofList, Text.snakeCase_flatMap_capitalized ne,
    ← String.toList_inj, String.toList_ofList, String.toList_intercalate, List.map_map]
  simp [Function.comp_def, Text.LowerWord.text]

theorem Text.LowerWord.ne_of_mem_capitalized (w : LowerWord) {d : Char} (h : d ∈ w.capitalized) :
    d ≠ '.' ∧ d ≠ '/' ∧ isBlank d = false := by
  rcases List.mem_cons.1 h with rfl | rest
  · exact ascii_forall (P := fun c => 'a' ≤ c ∧ c ≤ 'z' →
      c.toUpper ≠ '.' ∧ c.toUpper ≠ '/' ∧ isBlank c.toUpper = false) (by decide +kernel)
      (InWord.ascii (.inl w.first_mem)) w.first_mem
  · have inWord := w.rest_mem d rest
    exact ascii_forall (P := fun c => InWord c → c ≠ '.' ∧ c ≠ '/' ∧ isBlank c = false)
      (by decide +kernel) inWord.ascii inWord

theorem plain_camelCase (ne : words ≠ []) : Plain (camelCase words) := by
  constructor
  · obtain ⟨w, words, rfl⟩ := List.exists_cons_of_ne_nil ne
    simp [camelCase, Text.LowerWord.capitalized]
  · intro d hd
    rw [camelCase, String.toList_ofList] at hd
    obtain ⟨w, -, hw⟩ := List.mem_flatMap.1 hd
    exact w.ne_of_mem_capitalized hw

theorem snakeCase_camelCase_ne (ne : words ≠ []) :
    snakeCase (camelCase words) ≠ camelCase words := by
  intro same
  rw [snakeCase, camelCase, String.toList_ofList, String.ofList_inj,
    Text.snakeCase_eq_self_iff (Text.ascii_flatMap_capitalized words)] at same
  obtain ⟨w, words, rfl⟩ := List.exists_cons_of_ne_nil ne
  have lower := same w.first.toUpper (by simp [Text.LowerWord.capitalized])
  rw [w.isUpper_toUpper_first] at lower
  cases lower

/-! ## The guess -/

namespace Config

/-- A single plain name asks for itself below the root. -/
theorem pathOf?_of_plain (plain : Plain name) : c.pathOf? name = some name := by
  have apart (front : String) : below? front name = none := by
    rw [Option.eq_none_iff_forall_ne_some]
    exact fun rest h => plain.ne_append (below?_eq_some_iff.1 h)
  rw [pathOf?, anchor, apart, apart]

theorem guessedSpellings_camelCase (ne : words ≠ []) :
    c.guessedSpellings (camelCase words) =
      [c.atRoot ("_".intercalate (words.map (·.text)) ++ "." ++ camelCase words),
        c.atAlias ("_".intercalate (words.map (·.text)) ++ "." ++ camelCase words)] := by
  have single : isSingle (camelCase words) = true := isSingle_iff.2 (plain_camelCase ne).dot_not_mem
  have other := snakeCase_camelCase_ne ne
  rw [snakeCase_camelCase ne] at other
  rw [guessedSpellings, single, snakeCase_camelCase ne]
  simp [other]

end Config

theorem looksLikeFile_of_plain (plain : Plain name) : looksLikeFile name = false := by
  rw [← Bool.not_eq_true, Snapshot.looksLikeFile_iff]
  rintro (slash | ending)
  · exact (plain.2 _ slash).2.1 rfl
  · exact plain.dot_not_mem (ending.subset (by decide))

namespace Config

theorem isAnchored_atRoot (c : Config) (path : String) : c.isAnchored (c.atRoot path) = true := by
  rw [isAnchored, atRoot, below?_append]
  rfl

theorem isAnchored_atAlias (c : Config) (path : String) : c.isAnchored (c.atAlias path) = true := by
  rw [isAnchored, atAlias, below?_append, Option.isSome_some, Bool.or_true]

end Config

namespace Snapshot

/-- The item was typed by its name, or below the alias where that is not the path of a known
file. -/
def Asks (s : Snapshot) (c : Config) (input item : String) : Prop :=
  bareName input = item ∨
    c.anchor (bareName input) = .belowAlias item ∧ s.fileResolution c (bareName input) = none

/-- The declaration of an item inside the submodule with a name, below the internal root or else
below the public alias. -/
def inSubmodule? (s : Snapshot) (c : Config) (submodule item : String) : Option UInt32 :=
  (s.lookup (c.atRoot (submodule ++ "." ++ item))).or
    (s.lookup (c.atAlias (submodule ++ "." ++ item)))

theorem Asks.pathOf?_eq {item : String} (plain : Plain item) (asks : s.Asks c input item) :
    c.pathOf? (bareName input) = some item := by
  rcases asks with typed | ⟨below, -⟩
  · rw [typed, Config.pathOf?_of_plain plain]
  · rw [Config.pathOf?, below]

theorem Asks.fileResolution_eq {item : String} (plain : Plain item) (asks : s.Asks c input item) :
    s.fileResolution c (bareName input) = none := by
  rcases asks with typed | ⟨-, unknown⟩
  · rw [typed, fileResolution, looksLikeFile_of_plain plain]
    rfl
  · exact unknown

theorem exists_firstKnown_guess (ne : words ≠ [])
    (known : s.inSubmodule? c ("_".intercalate (words.map (·.text))) (camelCase words) = some i) :
    ∃ spelling, c.isAnchored spelling = true ∧
      s.firstKnown ((c.guessedSpellings (camelCase words)).map (.submoduleGuess, ·)) =
        some (i, .submoduleGuess, spelling) := by
  rw [Config.guessedSpellings_camelCase ne]
  rcases Option.or_eq_some_iff.1 known with root | ⟨root, byAlias⟩
  · exact ⟨_, c.isAnchored_atRoot _, firstKnown_cons root _ _⟩
  · refine ⟨c.atAlias ("_".intercalate (words.map (·.text)) ++ "." ++ camelCase words),
      c.isAnchored_atAlias _, ?_⟩
    simp [firstKnown, root, byAlias]

theorem firstKnown_direct_eq_none_iff {l : List String} :
    s.firstKnown (l.map (Strategy.direct, ·)) = none ↔ ∀ p ∈ l, s.lookup p = none := by
  simp [firstKnown]

theorem strategy_of_firstKnown_direct {l : List String} {j : UInt32} {strategy : Strategy}
    {spelling : String}
    (h : s.firstKnown (l.map (.direct, ·)) = some (j, strategy, spelling)) :
    strategy = .direct := by
  obtain ⟨p, -, same⟩ := List.mem_map.1 (firstKnown_spec h).1
  exact (congrArg Prod.fst same).symm

/-- An item that is in the submodule named after it is found: by the guess, unless its name is one
of the main module's, if no spelling of it as it was typed is known, and else by that spelling. -/
theorem exists_resolution_guess (ne : words ≠ []) (asks : s.Asks c input (camelCase words))
    (other : c.namesRoot (bareName input) = false)
    (known : s.inSubmodule? c ("_".intercalate (words.map (·.text))) (camelCase words) = some i) :
    ∃ r, s.resolution c input = some r ∧
      ((∀ p ∈ c.directSpellings (bareName input), s.lookup p = none) →
        r.handle = ⟨i⟩ ∧ r.strategy = .submoduleGuess ∧ r.title = c.atAlias (camelCase words)) ∧
      ((∃ p ∈ c.directSpellings (bareName input), s.lookup p ≠ none) → r.strategy = .direct) := by
  have plain := plain_camelCase ne
  have asked := asks.pathOf?_eq plain
  obtain ⟨spelling, anchored, guessed⟩ := exists_firstKnown_guess ne known
  -- spellings as typed are tried before the guess, the common submodules behind it
  have listed : s.firstKnown (c.candidates (bareName input)) =
      (s.firstKnown ((c.directSpellings (bareName input)).map (.direct, ·))).or
        (some (i, .submoduleGuess, spelling)) := by
    rw [Config.candidates, asked, firstKnown_append, firstKnown_append, guessed]
    rfl
  have resolved : s.resolution c input = s.pathResolution c (bareName input) := by
    rw [resolution, other, asks.fileResolution_eq plain]
    rfl
  rw [resolved]
  cases direct : s.firstKnown ((c.directSpellings (bareName input)).map (.direct, ·)) with
  | none =>
    rw [direct] at listed
    have unknown := firstKnown_direct_eq_none_iff.1 direct
    have title : c.shortTitle? (bareName input) spelling = some (c.atAlias (camelCase words)) :=
      Config.shortTitle?_eq_some_iff.2 ⟨_, asked, plain.dot_not_mem, anchored, rfl⟩
    refine ⟨_, pathResolution_eq listed, fun _ => ⟨rfl, rfl, ?_⟩, ?_⟩
    · rw [title]
      rfl
    · rintro ⟨p, hp, found⟩
      exact absurd (unknown p hp) found
  | some hit =>
    obtain ⟨j, strategy, found⟩ := hit
    rw [direct] at listed
    refine ⟨_, pathResolution_eq listed, fun unknown => ?_, fun _ =>
      strategy_of_firstKnown_direct direct⟩
    rw [firstKnown_direct_eq_none_iff.2 unknown] at direct
    cases direct

end Snapshot

/-- The snake-case form tells words with capitals apart, so that an item in the submodule named
after it is always found: by the guess, unless a spelling as typed goes before it. For every ASCII
name the form has no upper-case letter, is left as it is by a second pass, is the name in lower case
but for underscores, and is the name exactly if no letter of it is an upper-case one. -/
theorem snakeCase_spec :
    (∀ words : List Text.LowerWord, words ≠ [] →
      snakeCase (camelCase words) = "_".intercalate (words.map (·.text)) ∧
        ∀ (s : Snapshot) (c : Config) (input : String) (i : UInt32),
          s.RootsClosed → s.Fits → c.Fits input → s.Asks c input (camelCase words) →
          c.namesRoot (bareName input) = false →
          s.inSubmodule? c ("_".intercalate (words.map (·.text))) (camelCase words) = some i →
            ∃ r : Resolved, Index.Answers s (Index.resolve c input) (.ok (some r)) ∧
              ((∀ p ∈ c.directSpellings (bareName input), s.lookup p = none) →
                r.handle = ⟨i⟩ ∧ r.strategy = .submoduleGuess ∧
                  r.title = c.atAlias (camelCase words)) ∧
              ((∃ p ∈ c.directSpellings (bareName input), s.lookup p ≠ none) →
                r.strategy = .direct)) ∧
      ∀ name : String, Text.Ascii name.toList →
        (∀ d ∈ (snakeCase name).toList, Text.isUpper d = false) ∧
          snakeCase (snakeCase name) = snakeCase name ∧
          (snakeCase name).toList.filter (· ≠ '_') =
            (Text.lowercase name.toList).filter (· ≠ '_') ∧
          (snakeCase name = name ↔ ∀ d ∈ name.toList, Text.isUpper d = false) := by
  constructor
  · intro words ne
    refine ⟨snakeCase_camelCase ne, fun s c input i closed fits short asks other known => ?_⟩
    obtain ⟨r, found, guess, direct⟩ := Snapshot.exists_resolution_guess ne asks other known
    have answers := Index.answers_resolve closed fits short
    rw [found] at answers
    exact ⟨r, answers, guess, direct⟩
  · intro name ascii
    simp only [snakeCase, String.toList_ofList]
    refine ⟨fun d => Text.isUpper_of_mem_snakeCase ascii, ?_, Text.filter_snakeCase ascii, ?_⟩
    · rw [Text.snakeCase_snakeCase ascii]
    · rw [← String.toList_inj, String.toList_ofList, Text.snakeCase_eq_self_iff ascii]

theorem exists_words_arrayList : ∃ words : List Text.LowerWord, words ≠ [] ∧
    camelCase words = "ArrayList" ∧ "_".intercalate (words.map (·.text)) = "array_list" := by
  let array : Text.LowerWord :=
    ⟨'a', ['r', 'r', 'a', 'y'], by decide, by simp [Text.InWord], by decide⟩
  let list : Text.LowerWord :=
    ⟨'l', ['i', 's', 't'], by decide, by simp [Text.InWord], by decide⟩
  exact ⟨[array, list], List.cons_ne_nil _ _, by decide +kernel, by decide +kernel⟩

theorem snakeCase_spec_sample :
    Snapshot.sample.RootsClosed ∧ Snapshot.sample.Fits ∧ ({} : Config).Fits " ArrayList." ∧
      snakeCase "ArrayList" = "array_list" ∧
      (∃ r : Resolved,
        Index.Answers Snapshot.sample (Index.resolve {} " ArrayList.") (.ok (some r)) ∧
          r.handle = ⟨6⟩ ∧ r.strategy = .submoduleGuess ∧ r.title = "std.ArrayList") ∧
      Text.Ascii "XML_Parser2Go".toList ∧
      snakeCase (snakeCase "XML_Parser2Go") = snakeCase "XML_Parser2Go" := by
  obtain ⟨words, ne, item, submodule⟩ := exists_words_arrayList
  have closed : Snapshot.sample.RootsClosed := Snapshot.tidy_sample.toRootsClosed
  obtain ⟨form, found⟩ := snakeCase_spec.1 words ne
  simp only [item, submodule] at form found
  obtain ⟨r, answers, guess, -⟩ := found Snapshot.sample {} " ArrayList." 6 closed
    Snapshot.fits_sample Config.fits_sample (.inl (by decide +kernel)) (by decide +kernel)
    (by decide +kernel)
  have ascii : Text.Ascii "XML_Parser2Go".toList := by decide +kernel
  exact ⟨closed, Snapshot.fits_sample, Config.fits_sample, form,
    ⟨r, answers, guess (by decide +kernel)⟩, ascii, (snakeCase_spec.2 _ ascii).2.1⟩

end DocIndex
