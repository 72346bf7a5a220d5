import DocIndex.Proofs.Text.Words
import DocIndex.Text.SnakeCase

/-!
# ASCII names in snake case

The snake-case form of an ASCII name is its characters in lower case with an underscore in front of
each that starts a word (`snakeCase_eq_spread`): no word starts behind an underscore, so that none
is ever left out. So the form has no upper-case letter, is the name in lower case when underscores
are left out of both, and is the name itself exactly if no letter of it is an upper-case one. Lower
words of two characters or more (`LowerWord`), written one behind the other with capitals, are told
apart again (`snakeCase_flatMap_capitalized`).
-/

namespace DocIndex.Text

variable {c : Char} {before : Option Char} {s t : List Char}

/-! ## ASCII characters -/

/-- Whether all characters are ASCII. -/
def Ascii (s : List Char) : Prop :=
  ∀ c ∈ s, c.toNat < 128

instance (s : List Char) : Decidable (Ascii s) :=
  List.decidableBAll _ s

theorem ascii_cons : Ascii (c :: s) ↔ c.toNat < 128 ∧ Ascii s :=
  List.forall_mem_cons

/-- What holds of the first 128 characters holds of every ASCII one. -/
theorem ascii_forall {P : Char → Prop} (h : ∀ n < 128, P (Char.ofNat n)) :
    c.toNat < 128 → P c := by
  intro lt
  have := h c.toNat lt
  rwa [Char.ofNat_toNat] at this

theorem isUpper_toLower : c.toNat < 128 → isUpper c.toLower = false :=
  ascii_forall (P := fun c => isUpper c.toLower = false) (by decide +kernel)

theorem toLower_of_not_isUpper : c.toNat < 128 → isUpper c = false → c.toLower = c :=
  ascii_forall (P := fun c => isUpper c = false → c.toLower = c) (by decide +kernel)

theorem toLower_lt : c.toNat < 128 → c.toLower.toNat < 128 :=
  ascii_forall (P := fun c => c.toLower.toNat < 128) (by decide +kernel)

theorem toLower_eq_underscore_iff : c.toNat < 128 → (c.toLower = '_' ↔ c = '_') :=
  ascii_forall (P := fun c => c.toLower = '_' ↔ c = '_') (by decide +kernel)

theorem toLower_eq (ascii : c.toNat < 128) : toLower c = [c.toLower] :=
  if_pos ascii

theorem lowercaseAfter_of_ascii (ascii : Ascii s) (before : List Char) :
    lowercaseAfter before s = s.map Char.toLower := by
  induction s generalizing before with
  | nil => rfl
  | cons c r ih =>
    rw [ascii_cons] at ascii
    have sigma : c ≠ 'Σ' := fun h => absurd ascii.1 (by rw [h]; decide)
    rw [lowercaseAfter, if_neg sigma, toLower_eq ascii.1, ih ascii.2]
    rfl

theorem lowercase_of_ascii (ascii : Ascii s) : lowercase s = s.map Char.toLower :=
  lowercaseAfter_of_ascii ascii []

/-- No word starts behind an underscore. -/
theorem startsWord_underscore (after : Option Char) : startsWord (some '_') after = false :=
  rfl

/-! ## The form as one pass -/

/-- The characters in lower case, with an underscore in front of each that starts a word. -/
def spread (before : Option Char) : List Char → List Char
  | [] => []
  | c :: r =>
    (if isUpper c && startsWord before r.head? then ['_'] else []) ++ c.toLower :: spread (some c) r

/-- What is written ends with the lower-case form of the character before, so it ends with an
underscore only where no word starts. -/
theorem snakeCaseAfter_eq_spread (ascii : Ascii s) (asciiBefore : ∀ b ∈ before, b.toNat < 128)
    {written : List Char} (last : written.head? = before.map Char.toLower) :
    snakeCaseAfter before written s = written.reverse ++ spread before s := by
  induction s generalizing before written with
  | nil => rw [snakeCaseAfter, spread, List.append_nil]
  | cons c r ih =>
    rw [ascii_cons] at ascii
    have next (form : List Char) (ends : form.getLast? = some c.toLower) :
        snakeCaseAfter (some c) (form.reverse ++ written) r =
          written.reverse ++ (form ++ spread (some c) r) := by
      rw [ih ascii.2 (by simpa using ascii.1) (by simp [ends])]
      simp
    rw [snakeCaseAfter, spread, toLower_eq ascii.1]
    cases upper : isUpper c with
    | false =>
      have same := toLower_of_not_isUpper ascii.1 upper
      simpa [same] using next [c] (by simp [same])
    | true =>
      cases starts : startsWord before r.head? with
      | false => simpa using next [c.toLower] rfl
      | true =>
        have free : written.head? ≠ some '_' := by
          rw [last]
          intro h
          obtain ⟨b, hb, lower⟩ := Option.map_eq_some_iff.1 h
          rw [toLower_eq_underscore_iff (asciiBefore b hb)] at lower
          rw [hb, lower, startsWord_underscore] at starts
          cases starts
        simpa [free] using next ['_', c.toLower] rfl

theorem snakeCase_eq_spread (ascii : Ascii s) : snakeCase s = spread none s :=
  snakeCaseAfter_eq_spread ascii (by simp) rfl

/-! ## Laws of the form -/

theorem mem_spread (h : c ∈ spread before s) : c = '_' ∨ ∃ d ∈ s, c = d.toLower := by
  induction s generalizing before with
  | nil => cases h
  | cons d r ih =>
    rw [spread, List.mem_append, List.mem_cons] at h
    rcases h with mark | rfl | rest
    · split at mark
      · exact .inl (List.mem_singleton.1 mark)
      · cases mark
    · exact .inr ⟨d, List.mem_cons_self, rfl⟩
    · exact (ih rest).imp_right fun ⟨e, he, same⟩ => ⟨e, List.mem_cons_of_mem _ he, same⟩

theorem ascii_snakeCase (ascii : Ascii s) : Ascii (snakeCase s) := by
  intro c hc
  rw [snakeCase_eq_spread ascii] at hc
  rcases mem_spread hc with rfl | ⟨d, hd, rfl⟩
  · decide
  · exact toLower_lt (ascii d hd)

/-- No letter of the form is an upper-case one. -/
theorem isUpper_of_mem_snakeCase (ascii : Ascii s) (h : c ∈ snakeCase s) : isUpper c = false := by
  rw [snakeCase_eq_spread ascii] at h
  rcases mem_spread h with rfl | ⟨d, hd, rfl⟩
  · rfl
  · exact isUpper_toLower (ascii d hd)

theorem spread_eq_self (ascii : Ascii s) (lower : ∀ c ∈ s, isUpper c = false) :
    spread before s = s := by
  induction s generalizing before with
  | nil => rfl
  | cons c r ih =>
    rw [ascii_cons] at ascii
    rw [List.forall_mem_cons] at lower
    rw [spread, lower.1, ih ascii.2 lower.2, toLower_of_not_isUpper ascii.1 lower.1]
    rfl

theorem snakeCase_eq_self_iff (ascii : Ascii s) :
    snakeCase s = s ↔ ∀ c ∈ s, isUpper c = false := by
  constructor
  · intro same c hc
    rw [← same] at hc
    exact isUpper_of_mem_snakeCase ascii hc
  · intro lower
    rw [snakeCase_eq_spread ascii, spread_eq_self ascii lower]

theorem snakeCase_snakeCase (ascii : Ascii s) : snakeCase (snakeCase s) = snakeCase s :=
  (snakeCase_eq_self_iff (ascii_snakeCase ascii)).2 fun _ => isUpper_of_mem_snakeCase ascii

theorem filter_spread (before : Option Char) (s : List Char) :
    (spread before s).filter (· ≠ '_') = (s.map Char.toLower).filter (· ≠ '_') := by
  induction s generalizing before with
  | nil => rfl
  | cons c r ih =>
    have mark : (if isUpper c && startsWord before r.head? then ['_'] else []).filter (· ≠ '_') =
        [] := by
      split <;> rfl
    rw [spread, List.filter_append, mark, List.nil_append, List.map_cons, List.filter_cons,
      List.filter_cons, ih]

/-- But for underscores the form is the name in lower case. -/
theorem filter_snakeCase (ascii : Ascii s) :
    (snakeCase s).filter (· ≠ '_') = (lowercase s).filter (· ≠ '_') := by
  rw [snakeCase_eq_spread ascii, filter_spread, lowercase_of_ascii ascii]

/-! ## Words with capitals -/

/-- Whether the character is a lower-case letter or a digit. -/
def InWord (c : Char) : Prop :=
  ('a' ≤ c ∧ c ≤ 'z') ∨ ('0' ≤ c ∧ c ≤ '9')

instance (c : Char) : Decidable (InWord c) :=
  inferInstanceAs (Decidable (_ ∨ _))

theorem InWord.ascii (h : InWord c) : c.toNat < 128 := by
  have bound {d : Char} (le : c ≤ d) : c.toNat ≤ d.toNat := le
  rcases h with ⟨-, le⟩ | ⟨-, le⟩
  · exact Nat.lt_of_le_of_lt (bound le) (by decide)
  · exact Nat.lt_of_le_of_lt (bound le) (by decide)

theorem InWord.isUpper_eq_false (h : InWord c) : isUpper c = false :=
  ascii_forall (P := fun c => InWord c → isUpper c = false) (by decide +kernel) h.ascii h

/-- Behind a letter or digit of a word every capital starts a word. -/
theorem InWord.startsWord (h : InWord c) (after : Option Char) :
    startsWord (some c) after = true := by
  have low : isLower c || c.isDigit := ascii_forall
    (P := fun c => InWord c → isLower c || c.isDigit) (by decide +kernel) h.ascii h
  exact if_pos low

/-- A word of two characters or more: a lower-case letter, and behind it lower-case letters and
digits. -/
structure LowerWord where
  first : Char
  rest : List Char
  first_mem : 'a' ≤ first ∧ first ≤ 'z'
  rest_mem : ∀ c ∈ rest, InWord c
  rest_ne_nil : rest ≠ []

namespace LowerWord

/-- The characters of a word. -/
def chars (w : LowerWord) : List Char :=
  w.first :: w.rest

/-- The word with a capital. -/
def capitalized (w : LowerWord) : List Char :=
  w.first.toUpper :: w.rest

variable (w : LowerWord)

theorem isUpper_toUpper_first : isUpper w.first.toUpper = true :=
  ascii_forall (P := fun c => 'a' ≤ c ∧ c ≤ 'z' → isUpper c.toUpper = true) (by decide +kernel)
    (InWord.ascii (.inl w.first_mem)) w.first_mem

theorem toLower_toUpper_first : w.first.toUpper.toLower = w.first :=
  ascii_forall (P := fun c => 'a' ≤ c ∧ c ≤ 'z' → c.toUpper.toLower = c) (by decide +kernel)
    (InWord.ascii (.inl w.first_mem)) w.first_mem

theorem ascii_capitalized : Ascii w.capitalized :=
  ascii_cons.2 ⟨ascii_forall (P := fun c => c.toUpper.toNat < 128) (by decide +kernel)
    (InWord.ascii (.inl w.first_mem)), fun c hc => (w.rest_mem c hc).ascii⟩

theorem exists_getLast? : ∃ last, w.rest.getLast? = some last ∧ InWord last := by
  have filled : w.rest.getLast?.isSome := by simpa using w.rest_ne_nil
  obtain ⟨last, hlast⟩ := Option.isSome_iff_exists.1 filled
  exact ⟨last, hlast, w.rest_mem last (List.mem_of_getLast? hlast)⟩

end LowerWord

/-- Letters and digits of words are kept, whatever stands around them. -/
theorem spread_append (inWord : ∀ c ∈ s, InWord c) (before : Option Char) (t : List Char) :
    spread before (s ++ t) = s ++ spread (s.getLast?.or before) t := by
  induction s generalizing before with
  | nil => rfl
  | cons c r ih =>
    rw [List.forall_mem_cons] at inWord
    have lower := inWord.1.isUpper_eq_false
    rw [List.cons_append, spread, lower, ih inWord.2,
      toLower_of_not_isUpper inWord.1.ascii lower, List.getLast?_cons]
    cases r.getLast? <;> rfl

/-- A word with a capital is read as the word, behind an underscore where it starts. -/
theorem spread_capitalized (w : LowerWord) (before : Option Char) (t : List Char) :
    spread before (w.capitalized ++ t) =
      (if startsWord before (w.rest ++ t).head? then ['_'] else []) ++
        (w.chars ++ spread w.rest.getLast? t) := by
  have last : w.rest.getLast?.or (some w.first.toUpper) = w.rest.getLast? := by
    obtain ⟨last, hlast, -⟩ := w.exists_getLast?
    rw [hlast, Option.some_or]
  rw [LowerWord.capitalized, List.cons_append, spread, w.isUpper_toUpper_first, Bool.true_and,
    w.toLower_toUpper_first, spread_append w.rest_mem, last]
  rfl

theorem spread_flatMap_capitalized {b : Char} (inWord : InWord b) (words : List LowerWord) :
    spread (some b) (words.flatMap LowerWord.capitalized) = words.flatMap ('_' :: ·.chars) := by
  induction words generalizing b with
  | nil => rfl
  | cons w words ih =>
    obtain ⟨last, hlast, lastInWord⟩ := w.exists_getLast?
    rw [List.flatMap_cons, spread_capitalized, inWord.startsWord, hlast, ih lastInWord,
      List.flatMap_cons]
    rfl

theorem ascii_flatMap_capitalized (words : List LowerWord) :
    Ascii (words.flatMap LowerWord.capitalized) := by
  intro c hc
  obtain ⟨w, -, hw⟩ := List.mem_flatMap.1 hc
  exact w.ascii_capitalized c hw

/-- Words with capitals, one behind the other, are the words with underscores between them. -/
theorem snakeCase_flatMap_capitalized {words : List LowerWord} (ne : words ≠ []) :
    snakeCase (words.flatMap LowerWord.capitalized) =
      ['_'].intercalate (words.map LowerWord.chars) := by
  rw [snakeCase_eq_spread (ascii_flatMap_capitalized words)]
  obtain ⟨w, words, rfl⟩ := List.exists_cons_of_ne_nil ne
  obtain ⟨last, hlast, lastInWord⟩ := w.exists_getLast?
  rw [List.flatMap_cons, spread_capitalized, hlast, spread_flatMap_capitalized lastInWord,
    List.map_cons, intercalate_cons_eq, List.flatMap_map]
  rfl

end DocIndex.Text
