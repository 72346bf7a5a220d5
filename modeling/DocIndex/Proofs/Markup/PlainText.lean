import DocIndex.Proofs.Markup.Section

/-!
# Plain text in paragraphs

Plain text that is escaped and put into a paragraph keeps its words, with any other paragraphs and
any `pre` blocks beside it, unless it holds what the conversion writes for a `pre` block itself: a
number between two marks (`Marked`). Such a text loses the number or has a block in its place
(`words_prose_iff`).
-/

namespace DocIndex.Markup

open Text

variable {language s t : List Char} {blocks : List (List Char)} {c : Char}

/-! ## Marked texts -/

/-- Whether digits between two marks stand in the text. -/
def Marked (s : List Char) : Prop :=
  ∃ digits, digits ≠ [] ∧ (∀ c ∈ digits, isDecimal c = true) ∧
    '\x01' :: (digits ++ ['\x01']) <:+: s

/-- A text that is not marked holds no placeholder. -/
theorem not_marked_iff : ¬ Marked s ↔ held.scan s = s.map Piece.plain := by
  rw [Pattern.scan_eq_map_plain_iff]
  constructor
  · intro unmarked c r suffix
    by_contra read
    obtain ⟨⟨n, rest⟩, read⟩ := Option.ne_none_iff_exists'.1 read
    obtain ⟨digits, same, ne, decimal, -⟩ := held_read?_iff.1 read
    refine unmarked ⟨digits, ne, decimal, ?_⟩
    rw [same] at suffix
    refine List.IsInfix.trans ⟨[], rest, ?_⟩ suffix.isInfix
    simp
  · rintro nowhere ⟨digits, ne, decimal, front, back, rfl⟩
    have read : held.read? ('\x01' :: (digits ++ '\x01' :: back)) =
        some (number 10 digits, back) :=
      held_read?_iff.2 ⟨digits, rfl, ne, decimal, rfl⟩
    have suffix : '\x01' :: (digits ++ '\x01' :: back) <:+
        front ++ '\x01' :: (digits ++ ['\x01']) ++ back := ⟨front, by simp⟩
    rw [nowhere _ _ suffix] at read
    cases read

/-- Whether a text is marked depends on its words alone. -/
theorem marked_congr (same : words s = words t) : Marked s ↔ Marked t := by
  have solid {digits : List Char} (decimal : ∀ c ∈ digits, isDecimal c = true) :
      ∀ c ∈ '\x01' :: (digits ++ ['\x01']), isBlank c = false := by
    rw [List.forall_mem_cons, List.forall_mem_append, List.forall_mem_singleton]
    exact ⟨rfl, fun c hc => isBlank_of_isDecimal (decimal c hc), rfl⟩
  refine exists_congr fun digits => and_congr_right fun _ => and_congr_right fun decimal => ?_
  have ne : '\x01' :: (digits ++ ['\x01']) ≠ [] := List.cons_ne_nil _ _
  rw [infix_iff_words ne (solid decimal), infix_iff_words ne (solid decimal), same]

theorem releaseBlocks_of_not_marked (unmarked : ¬ Marked s) :
    releaseBlocks language blocks s = s := by
  rw [releaseBlocks, Pattern.replace, not_marked_iff.1 unmarked, Pattern.flatMap_text_map_plain]

/-! ## What is left of a marked text -/

/-- What is written for a placeholder. -/
theorem releaseBlocks_of_read? {n : Nat} {rest : List Char} (read : held.read? s = some (n, rest)) :
    releaseBlocks language blocks s =
      (blocks[n]?.map (fence language)).getD [] ++ releaseBlocks language blocks rest := by
  rw [releaseBlocks, Pattern.replace, Pattern.scan_of_some read]
  rfl

theorem releaseBlocks_of_none {r : List Char} (none : held.read? (c :: r) = none) :
    releaseBlocks language blocks (c :: r) = c :: releaseBlocks language blocks r := by
  rw [releaseBlocks, Pattern.replace, Pattern.scan_of_none none]
  rfl

theorem count_of_read? {n : Nat} {rest : List Char} (read : held.read? s = some (n, rest)) :
    s.count '\x60' = rest.count '\x60' ∧ s.count '\x01' = rest.count '\x01' + 2 := by
  obtain ⟨digits, rfl, -, decimal, -⟩ := held_read?_iff.1 read
  have absent (c : Char) (other : isDecimal c = false) : digits.count c = 0 :=
    List.count_eq_zero.2 fun mem => by simp [decimal c mem] at other
  constructor
  · simp [absent '\x60' rfl]
  · simp [absent '\x01' rfl]

/-- No backtick is lost where placeholders are released. -/
theorem count_tick_le (language : List Char) (blocks : List (List Char)) (s : List Char) :
    s.count '\x60' ≤ (releaseBlocks language blocks s).count '\x60' := by
  induction s using Pattern.scan.induct held with
  | case1 => simp
  | case2 c r n rest read ih =>
    rw [(count_of_read? read).1, releaseBlocks_of_read? read, List.count_append]
    omega
  | case3 c r none ih =>
    rw [releaseBlocks_of_none none, List.count_cons, List.count_cons]
    omega

theorem tick_mem_fence (language code : List Char) : '\x60' ∈ fence language code := by
  simp [fence]

/-- If there are no more backticks than before, all placeholders have vanished with their marks. -/
theorem count_mark_le (s : List Char)
    (same : (releaseBlocks language blocks s).count '\x60' = s.count '\x60') :
    (releaseBlocks language blocks s).count '\x01' ≤ s.count '\x01' ∧
      ((releaseBlocks language blocks s).count '\x01' = s.count '\x01' →
        held.scan s = s.map Piece.plain) := by
  induction s using Pattern.scan.induct held with
  | case1 => simp
  | case2 c r n rest read ih =>
    have le := count_tick_le language blocks rest
    obtain ⟨ticks, marks⟩ := count_of_read? read
    rw [ticks, releaseBlocks_of_read? read, List.count_append] at same
    have vanished : (blocks[n]?.map (fence language)).getD [] = [] := by
      cases hn : blocks[n]? with
      | none => rfl
      | some block =>
        have pos := List.count_pos_iff.2 (tick_mem_fence language block)
        simp only [hn, Option.map_some, Option.getD_some] at same
        omega
    rw [vanished, List.count_nil, Nat.zero_add] at same
    have fewer := (ih same).1
    rw [releaseBlocks_of_read? read, vanished, List.nil_append, marks]
    exact ⟨by omega, fun eq => by omega⟩
  | case3 c r none ih =>
    rw [releaseBlocks_of_none none] at same ⊢
    simp only [List.count_cons, Nat.add_right_cancel_iff] at same
    obtain ⟨le, whole⟩ := ih same
    simp only [List.count_cons, Nat.add_right_cancel_iff, Nat.add_le_add_iff_right]
    refine ⟨le, fun eq => ?_⟩
    rw [Pattern.scan_of_none none, whole eq, List.map_cons]

/-! ## Paragraphs of plain text -/

/-- A part of documentation: a paragraph of plain text, or a `pre` block. -/
inductive Part where
  | text (t : List Char)
  | listing (l : Listing)

namespace Part

/-- The part in HTML. -/
def html : Part → List Char
  | text t => startTag "p" ++ (escape t ++ endTag "p")
  | listing l => l.html

/-- The words that the part has to show. -/
def words (language : List Char) : Part → List (List Char)
  | text t => Text.words t
  | listing l => Text.words (l.markdown language)

theorem converts (t : List Char) :
    Converts (text t).html (['\n', '\n'] ++ (t ++ ['\n', '\n'])) :=
  .append .paragraph_start (.append (.escaped t) .paragraph_end)

/-- The part as a section of documentation. -/
def toSection : Part → Section
  | text t => .text _ _ (converts t)
  | listing l => .listing l

theorem html_toSection (p : Part) : p.toSection.html = p.html := by
  cases p <;> rfl

/-- The words that are shown for the part, if `blocks` is the code of all `pre` blocks. -/
def shown (language : List Char) (blocks : List (List Char)) (p : Part) : List (List Char) :=
  Text.words (p.toSection.shown language blocks)

theorem shown_text (t : List Char) : (text t).shown language blocks =
    Text.words (releaseBlocks language blocks (collapse t)) :=
  rfl

end Part

theorem count_flatten_words (hc : isBlank c = false) (s : List Char) :
    (words s).flatten.count c = s.count c := by
  rw [flatten_words, List.count_filter (by simp [hc])]

theorem count_flatMap_le {ι : Type} {f g : ι → List Char} {l : List ι}
    (le : ∀ i ∈ l, (f i).count c ≤ (g i).count c) :
    (l.flatMap f).count c ≤ (l.flatMap g).count c := by
  induction l with
  | nil => exact Nat.le_refl _
  | cons i l ih =>
    rw [List.forall_mem_cons] at le
    rw [List.flatMap_cons, List.flatMap_cons, List.count_append, List.count_append]
    exact Nat.add_le_add le.1 (ih le.2)

/-- If nothing is more often in the parts of one text than in those of the other, and it is as often
in all, then it is as often in each part. -/
theorem count_eq_of_flatMap {ι : Type} {f g : ι → List Char} {l : List ι}
    (le : ∀ i ∈ l, (f i).count c ≤ (g i).count c)
    (same : (l.flatMap f).count c = (l.flatMap g).count c) :
    ∀ i ∈ l, (f i).count c = (g i).count c := by
  induction l with
  | nil => simp
  | cons i l ih =>
    rw [List.forall_mem_cons] at le ⊢
    have others := count_flatMap_le le.2
    rw [List.flatMap_cons, List.flatMap_cons, List.count_append, List.count_append] at same
    exact ⟨by omega, ih le.2 (by omega)⟩

theorem Part.shown_eq_of_not_marked (unmarked : ¬ Marked t) :
    (Part.text t).shown language blocks = Text.words t := by
  have collapsed : ¬ Marked (collapse t) := by rwa [marked_congr (words_collapse t)]
  rw [Part.shown_text, releaseBlocks_of_not_marked collapsed, words_collapse]

theorem Part.count_words (hc : isBlank c = false) :
    ((Part.text t).words language).flatten.count c = (collapse t).count c := by
  rw [Part.words, ← words_collapse, count_flatten_words hc]

theorem Part.count_shown (hc : isBlank c = false) :
    ((Part.text t).shown language blocks).flatten.count c =
      (releaseBlocks language blocks (collapse t)).count c := by
  rw [Part.shown_text, count_flatten_words hc]

theorem Part.count_tick_le (p : Part) : (p.words language).flatten.count '\x60' ≤
    (p.shown language blocks).flatten.count '\x60' := by
  cases p with
  | text t =>
    rw [Part.count_words rfl, Part.count_shown rfl]
    exact Markup.count_tick_le language blocks (collapse t)
  | listing l => exact Nat.le_refl _

/-- Where no backtick has been added, no mark has been added either, and if no mark is gone the text
was not marked. -/
theorem Part.count_mark_le (p : Part) (same : (p.words language).flatten.count '\x60' =
      (p.shown language blocks).flatten.count '\x60') :
    (p.shown language blocks).flatten.count '\x01' ≤ (p.words language).flatten.count '\x01' ∧
      ((p.shown language blocks).flatten.count '\x01' = (p.words language).flatten.count '\x01' →
        ∀ t, p = .text t → ¬ Marked t) := by
  cases p with
  | text t =>
    rw [Part.count_words rfl, Part.count_shown rfl] at same ⊢
    obtain ⟨le, whole⟩ := Markup.count_mark_le (collapse t) same.symm
    refine ⟨le, fun eq u hu => ?_⟩
    cases hu
    rw [← marked_congr (words_collapse t), not_marked_iff]
    exact whole eq
  | listing l => exact ⟨Nat.le_refl _, fun _ t ht => by cases ht⟩

/-- The words that are shown are those of the texts exactly if no text is marked. -/
theorem flatMap_shown_iff (language : List Char) (blocks : List (List Char)) (parts : List Part) :
    parts.flatMap (Part.shown language blocks) = parts.flatMap (Part.words language) ↔
      ∀ t, Part.text t ∈ parts → ¬ Marked t := by
  constructor
  · intro same t mem
    have flat (f : Part → List (List Char)) :
        (parts.flatMap f).flatten = parts.flatMap fun p => (f p).flatten := by
      rw [List.flatten_eq_flatMap, List.flatMap_assoc]
      simp
    have count (c : Char) : (parts.flatMap fun p => (p.words language).flatten).count c =
        (parts.flatMap fun p => (p.shown language blocks).flatten).count c := by
      rw [← flat, ← flat, same]
    have ticks := count_eq_of_flatMap (fun p _ => p.count_tick_le) (count '\x60')
    have marks := count_eq_of_flatMap (fun p hp => (p.count_mark_le (ticks p hp)).1)
      (count '\x01').symm
    exact (Part.count_mark_le _ (ticks _ mem)).2 (marks _ mem) t rfl
  · intro unmarked
    refine List.flatMap_congr fun p mem => ?_
    cases p with
    | text t => exact Part.shown_eq_of_not_marked (unmarked t mem)
    | listing l => rfl

/-! ## What is converted -/

theorem words_prose (language : String) (parts : List Part) :
    words (prose (String.ofList (parts.flatMap Part.html)) language).toList =
      parts.flatMap (Part.shown language.toList
        ((parts.map Part.toSection).filterMap Section.code?)) := by
  have sections : parts.flatMap Part.html = (parts.map Part.toSection).flatMap Section.html := by
    rw [List.flatMap_map]
    exact List.flatMap_congr fun p _ => p.html_toSection.symm
  rw [prose, String.toList_ofList, String.toList_ofList, sections, words_proseText,
    List.flatMap_map]
  rfl

/-- Plain text on its own is shown like a paragraph. -/
theorem words_proseText_escape (t : List Char) :
    words (proseText language (escape t)) = (Part.text t).shown language [] := by
  have whole := proseText_stretches language [.markup (escape t) t (.escaped t)]
  simp only [List.flatMap_singleton, Stretch.html, Stretch.shown, List.append_nil] at whole
  rw [whole, words_trim]
  rfl

/-- Plain text keeps its words, in paragraphs with `pre` blocks beside them and on its own, exactly
if it is not marked. -/
theorem words_prose_iff (parts : List Part) (language : String) (t : List Char) :
    (words (prose (String.ofList (parts.flatMap Part.html)) language).toList =
        parts.flatMap (Part.words language.toList) ↔
      ∀ u, Part.text u ∈ parts → ¬ Marked u) ∧
    (inline (String.ofList (escape t)) = String.ofList (oneLine t) ↔ ¬ Marked t) := by
  constructor
  · rw [words_prose, flatMap_shown_iff]
  · have single := flatMap_shown_iff [] [] [.text t]
    rw [List.flatMap_singleton, List.flatMap_singleton] at single
    rw [inline, String.toList_ofList, String.ofList_inj, inlineText, oneLine_inj,
      words_proseText_escape, ← Part.words, single]
    simp

/-- A number between marks is lost from a text on its own, and in a paragraph beside a `pre` block
it is replaced by the block. -/
theorem prose_of_marked :
    inline (String.ofList (escape "a \x010\x01 b".toList)) = "a b" ∧
      inline (String.ofList (escape "a \x010\x01 b".toList)) ≠
        String.ofList (oneLine "a \x010\x01 b".toList) ∧
      prose "<p>a \x010\x01 b</p><pre>x</pre>" "zig" =
        "a \x60\x60\x60zig\nx\n\x60\x60\x60 b\n\n\x60\x60\x60zig\nx\n\x60\x60\x60" := by
  decide +kernel

end DocIndex.Markup
