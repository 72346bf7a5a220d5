import DocIndex.Engine.Table
import DocIndex.Proofs.Markup.PlainText

/-!
# Errors as definitions

An engine hands out an error as a term with a definition, both without escaping. If the name is a
word and the documentation does not close the definition, name and documentation are read back as
they are (`definition_errorHtml`).
-/

namespace DocIndex.Markup

open Text

variable {c : Char} {s t w : List Char}

/-! ## Names -/

/-- Whether the character may stand in a name. -/
def isNameChar (c : Char) : Bool :=
  c.isAlphanum || c = '_'

/-- Whether a text is a name: letters, digits and underscores. -/
def IsName (s : List Char) : Prop :=
  s ≠ [] ∧ s.all isNameChar = true

instance (s : List Char) : Decidable (IsName s) :=
  inferInstanceAs (Decidable (_ ∧ _))

theorem isBlank_of_isNameChar (h : isNameChar c = true) : isBlank c = false := by
  have bounds : 48 ≤ c.toNat ∧ c.toNat ≤ 122 := by
    have ranges : c.isAlphanum = ((decide (65 ≤ c.val ∧ c.val ≤ 90) ||
        (decide (97 ≤ c.val) && decide (c.val ≤ 122))) ||
        (decide (48 ≤ c.val) && decide (c.val ≤ 57))) := rfl
    rw [isNameChar, Bool.or_eq_true, decide_eq_true_eq] at h
    rcases h with h | rfl
    · simp only [ranges, Bool.or_eq_true, Bool.and_eq_true, decide_eq_true_eq,
        UInt32.le_iff_toNat_le] at h
      change ((65 ≤ c.toNat ∧ c.toNat ≤ 90) ∨ (97 ≤ c.toNat ∧ c.toNat ≤ 122)) ∨
        (48 ≤ c.toNat ∧ c.toNat ≤ 57) at h
      omega
    · decide
  rw [← Bool.not_eq_true, isBlank]
  simp only [Bool.or_eq_true, Bool.and_eq_true, decide_eq_true_eq, beq_iff_eq]
  omega

namespace IsName

variable (name : IsName s)

include name

theorem isNameChar_of_mem (hc : c ∈ s) : isNameChar c = true :=
  List.all_eq_true.1 name.2 c hc

theorem notMem (other : isNameChar c = false) : c ∉ s :=
  fun hc => by simp [name.isNameChar_of_mem hc] at other

theorem words_eq : words s = [s] :=
  words_eq_singleton name.1 fun _ hc => isBlank_of_isNameChar (name.isNameChar_of_mem hc)

theorem escape_eq : escape s = s := by
  have plain : ∀ c ∈ s, escapeChar c = [c] := by
    intro c hc
    have amp : c ≠ '&' := fun same => name.notMem (by decide) (same ▸ hc)
    have lt : c ≠ '<' := fun same => name.notMem (by decide) (same ▸ hc)
    have gt : c ≠ '>' := fun same => name.notMem (by decide) (same ▸ hc)
    rw [escapeChar, if_neg amp, if_neg lt, if_neg gt]
  rw [escape, List.flatMap_congr plain, List.flatMap_singleton']

/-- A name is shown as it is. -/
theorem inlineText_eq : inlineText s = s := by
  have unmarked : ¬ Marked s := by
    rintro ⟨digits, -, -, front, back, rfl⟩
    exact name.notMem (c := '\x01') (by decide) (by simp)
  have shown : words (proseText [] (escape s)) = _ := words_proseText_escape s
  rw [name.escape_eq, Part.shown_eq_of_not_marked unmarked] at shown
  rw [inlineText, oneLine, shown, name.words_eq, List.intercalate_singleton]

end IsName

/-! ## Closing tags -/

/-- Whether no closing tag of a definition stands in the text, in any case. -/
def Unclosed (s : List Char) : Prop :=
  ∀ rest ∈ s.tails, (rest.take 5).map Char.toLower ≠ "</dd>".toList

instance (s : List Char) : Decidable (Unclosed s) :=
  inferInstanceAs (Decidable (∀ rest ∈ s.tails, (rest.take 5).map Char.toLower ≠ "</dd>".toList))

/-- Whether the character is an ASCII one that is small if it is a letter, and that no other is the
same letter as but its capital. -/
def isPlainSmall (c : Char) : Bool :=
  c.toLower = c && c.toNat < 128 && c.toNat ≠ 0 && c ≠ 'k' && c ≠ 's'

theorem toLower_take_of_word? {rest : List Char} (small : w.all isPlainSmall = true)
    (read : word? w s = some rest) : (s.take w.length).map Char.toLower = w := by
  induction w generalizing s with
  | nil => simp
  | cons d w ih =>
    cases s with
    | nil => cases read
    | cons c s =>
      rw [List.all_cons, Bool.and_eq_true] at small
      rw [word?] at read
      split_ifs at read with same
      simp only [isPlainSmall, Bool.and_eq_true, decide_eq_true_eq] at small
      obtain ⟨⟨⟨⟨⟨lower, ascii⟩, ne⟩, k⟩, s⟩, rest⟩ := small
      rw [sameLetter_iff_toLower lower ascii ⟨ne, k, s⟩] at same
      rw [List.length_cons, List.take_succ_cons, List.map_cons, same, ih rest read]

theorem inner?_of_unclosed (unclosed : Unclosed s) : inner? ["dd"] s = none := by
  induction s with
  | nil => rfl
  | cons c s ih =>
    have split : (c :: s).tails = (c :: s) :: s.tails := rfl
    rw [Unclosed, split, List.forall_mem_cons] at unclosed
    have here : closing? ["dd"] (c :: s) = none := by
      rw [closing?_eq_findSome?, List.findSome?_eq_none_iff, List.forall_mem_singleton]
      by_contra read
      obtain ⟨rest, read⟩ := Option.ne_none_iff_exists'.1 read
      exact unclosed.1 (toLower_take_of_word? (by decide) read)
    rw [inner?, here, ih unclosed.2]
    rfl

/-! ## Definitions -/

theorem first?_of_read? {α : Type} {p : Pattern α} {a : α} {rest : List Char}
    (read : p.read? s = some (a, rest)) : p.first? s = some a := by
  rw [Pattern.first?, Pattern.scan_of_some read]
  rfl

/-- What no match starts in is passed over. -/
theorem first?_of_keeps {α : Type} {p : Pattern α} (kept : p.Keeps s) (t : List Char) :
    p.first? (s ++ t) = p.first? t := by
  have none : (s.map Piece.plain).findSome? (Piece.found? (α := α)) = none := by
    rw [List.findSome?_eq_none_iff, List.forall_mem_map]
    exact fun _ _ => rfl
  rw [Pattern.first?, kept t, List.findSome?_append, none, Option.none_or, Pattern.first?]

theorem proseText_nil (language : List Char) : proseText language [] = [] := by
  have none : joinBlocks ((Section.bodies 0 []).map collapse) = [] := rfl
  have shown := proseText_eq language []
  rw [none, releaseBlocks_nil] at shown
  exact shown

/-- A term is read in front of anything. -/
theorem first?_term (name : IsName s) (t : List Char) :
    (element true ["dt"]).first? (startTag "dt" ++ (s ++ endTag "dt") ++ t) = some s := by
  have picks : Picks ["dt"] "dt" := by decide
  have opened (rest : List Char) : opening? ["dt"] (if true then close? else closeName?)
      (startTag "dt" ++ rest) = some rest := picks.opening? close?_gt rest
  have plain : '<' ∉ s := name.notMem (by decide)
  exact first?_of_read? (read?_element opened (by decide) picks (inner?_of_plain plain) t)

theorem keeps_term (name : IsName s) :
    description.Keeps (startTag "dt" ++ (s ++ endTag "dt")) := by
  have opens := opens_element true ["dd"]
  refine (opens.keeps_tag (by decide) ?_).append
    ((opens.keeps_text (name.notMem (by decide))).append (opens.keeps_tag (by decide) ?_))
  · exact List.forall_mem_singleton.2 (by decide)
  · exact List.forall_mem_singleton.2 (by decide)

/-- A description is read if it does not close itself. -/
theorem first?_description (unclosed : Unclosed s) :
    description.first? (startTag "dd" ++ (s ++ endTag "dd")) = some s := by
  have picks : Picks ["dd"] "dd" := by decide
  have opened (rest : List Char) : opening? ["dd"] (if true then close? else closeName?)
      (startTag "dd" ++ rest) = some rest := picks.opening? close?_gt rest
  have read := read?_element opened (by decide) picks (inner?_of_unclosed unclosed) []
  rw [List.append_nil] at read
  exact first?_of_read? read

/-- A definition is shown as its term and its description. -/
theorem definition_eq {html term : List Char}
    (named : (element true ["dt"]).first? html = some term) (language : String) :
    definition (String.ofList html) language =
      (String.ofList (inlineText term),
        String.ofList (((description.first? html).map (proseText language.toList)).getD [])) := by
  rw [definition, definitionText, String.toList_ofList, named]

/-- A name and a documentation that does not close its definition are read back. -/
theorem definition_errorHtml {e : ErrorEntry} (name : IsName e.name.toList)
    (unclosed : Unclosed e.docsHtml.toList) (language : String) :
    definition (Snapshot.errorHtml e) language = (e.name, prose e.docsHtml language) := by
  have term := first?_term name
  rw [Snapshot.errorHtml]
  split_ifs with bare
  · have shape : "<dt>" ++ e.name ++ "</dt>" =
        String.ofList (startTag "dt" ++ (e.name.toList ++ endTag "dt") ++ []) :=
      String.toList_inj.1 (by simp [startTag, endTag])
    have none : description.first? [] = none := by
      rw [Pattern.first?, Pattern.scan_nil]
      rfl
    rw [shape, definition_eq (term []), first?_of_keeps (keeps_term name), none, bare, prose,
      name.inlineText_eq, String.ofList_toList, String.toList_empty, proseText_nil]
    rfl
  · have shape : "<dt>" ++ e.name ++ "</dt><dd>" ++ e.docsHtml ++ "</dd>" =
        String.ofList (startTag "dt" ++ (e.name.toList ++ endTag "dt") ++
          (startTag "dd" ++ (e.docsHtml.toList ++ endTag "dd"))) :=
      String.toList_inj.1 (by simp [startTag, endTag])
    rw [shape, definition_eq (term _), first?_of_keeps (keeps_term name),
      first?_description unclosed, name.inlineText_eq, String.ofList_toList]
    rfl

example : definition (Snapshot.errorHtml ⟨"Bad", "a</DD>b"⟩) "zig" = ("Bad", "a") := by
  decide +kernel

end DocIndex.Markup
