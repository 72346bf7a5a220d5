import DocIndex.Proofs.Markup.Whitespace
import DocIndex.Proofs.Text.Lines

/-!
# Collapsed texts

A text is `Collapsed` if only single blanks are left of its spaces, no line has white space at an
end, and empty lines stand one at a time between two others, which only items do without. These are
exactly the texts that collapsing does not change, and every text becomes one (`collapse_normal`).

The lines that are written are `Orderly` at every time: a line may go on and become an item by that,
but then an empty line stands in front of it or nothing. And orderly lines are written again when
they are read (`Orderly.replay`).
-/

namespace DocIndex.Markup

open Text

variable {s t a b line last : List Char} {written rest : List (List Char)} {state : Collapsing}

/-! ## Neat lines -/

/-- Whether not both characters are spaces. -/
def NotBothSpaces (c d : Char) : Prop :=
  isSpace c = false ∨ isSpace d = false

/-- Whether a text is one line with words, without white space at its ends and with no spaces but
single blanks. -/
structure Neat (line : List Char) : Prop where
  framed : Framed line
  newline : '\n' ∉ line
  blank : ∀ c ∈ line, isSpace c = true → c = ' '
  single : line.IsChain NotBothSpaces

theorem isSpace_of_not_isBlank {c : Char} (h : isBlank c = false) : isSpace c = false := by
  by_contra space
  simp [isBlank_of_isSpace (by simpa using space)] at h

theorem squeeze_eq_self (blank : ∀ c ∈ s, isSpace c = true → c = ' ')
    (single : s.IsChain NotBothSpaces) : squeeze s = s := by
  induction s with
  | nil => rfl
  | cons c r ih =>
    have same := ih (fun d hd => blank d (List.mem_cons_of_mem c hd)) single.of_cons
    cases hc : isSpace c with
    | false => rw [squeeze_cons_of_not hc, same]
    | true =>
      obtain rfl := blank c List.mem_cons_self hc
      obtain ⟨rest, squeezed, twice | ⟨once, -⟩⟩ := exists_squeeze_cons hc r
      · rw [same] at twice
        subst twice
        rcases (List.isChain_cons_cons.1 single).1 with h | h <;> cases h
      · rw [squeezed, ← once, same]

theorem neat_trim_squeeze (filled : words s ≠ []) (newline : '\n' ∉ s) :
    Neat (trim (squeeze s)) := by
  have part := trim_isInfix (squeeze s)
  have ne : trim (squeeze s) ≠ [] := by rwa [Ne, trim_eq_nil_iff, words_squeeze]
  refine ⟨⟨ne, isBlank_head?_trim _, firm_trim _⟩, fun inside => ?_, fun c hc => ?_, ?_⟩
  · rcases mem_of_mem_squeeze (part.subset inside) with same | inside
    · cases same
    · exact newline inside
  · exact eq_blank_of_mem_squeeze (part.subset hc)
  · exact isChain_trim_squeeze s

theorem Neat.trim_squeeze (neat : Neat line) : trim (squeeze line) = line := by
  rw [squeeze_eq_self neat.blank neat.single, neat.framed.trim_eq]

theorem Neat.words_ne_nil (neat : Neat line) : words line ≠ [] := by
  rw [Ne, words_eq_nil_iff_of_firm neat.framed.firm]
  exact neat.framed.ne

/-- A line that goes on with another one is neat like both. -/
theorem Neat.append (ha : Neat a) (hb : Neat b) : Neat (a ++ ' ' :: b) where
  framed := ha.framed.append hb.framed [' ']
  newline := by simp [ha.newline, hb.newline]
  blank c hc space := by
    rw [List.mem_append, List.mem_cons] at hc
    rcases hc with hc | rfl | hc
    · exact ha.blank c hc space
    · rfl
    · exact hb.blank c hc space
  single := by
    refine List.isChain_append.2 ⟨ha.single, List.isChain_cons.2 ⟨fun c hc => ?_, hb.single⟩, ?_⟩
    · exact .inr (isSpace_of_not_isBlank (hb.framed.head c hc))
    · exact fun c hc d _ => .inl (isSpace_of_not_isBlank (ha.framed.firm c hc))

theorem isItem_append_of_isItem (item : isItem a = true) (b : List Char) :
    isItem (a ++ b) = true := by
  rw [isItem, List.isPrefixOf_iff_prefix] at item ⊢
  exact item.trans (List.prefix_append a b)

/-! ## Orderly lines -/

/-- Whether the lines, the latest first, are neat and have one empty line between each two of them
that are not both items. -/
inductive Orderly : List (List Char) → Prop
  | none : Orderly []
  | first {line : List Char} (neat : Neat line) : Orderly [line]
  | item {line last : List Char} {rest : List (List Char)} (neat : Neat line)
    (both : isItem last = true ∧ isItem line = true) (orderly : Orderly (last :: rest)) :
    Orderly (line :: last :: rest)
  | block {line last : List Char} {rest : List (List Char)} (neat : Neat line)
    (orderly : Orderly (last :: rest)) : Orderly (line :: [] :: last :: rest)

namespace Orderly

theorem neat_head (orderly : Orderly (line :: rest)) : Neat line := by
  cases orderly <;> assumption

/-- The line that was written last can go on. If it becomes an item by that, it is not one that
follows another line directly. -/
theorem extend (orderly : Orderly (last :: rest)) (neat : Neat line) :
    Orderly ((last ++ ' ' :: line) :: rest) := by
  have whole := orderly.neat_head.append neat
  cases orderly with
  | first => exact .first whole
  | item _ both orderly => exact .item whole ⟨both.1, isItem_append_of_isItem both.2 _⟩ orderly
  | block _ orderly => exact .block whole orderly

theorem place (orderly : Orderly state.written) (neat : Neat line) :
    Orderly (state.place line).written := by
  obtain ⟨written, broken⟩ := state
  cases written with
  | nil => exact .first neat
  | cons last rest =>
    simp only [Collapsing.place]
    split_ifs with breaks item
    · exact .block neat orderly
    · have before : isItem last = true := by
        by_contra other
        exact breaks (by simp [item, other])
      exact .item neat ⟨before, item⟩ orderly
    · exact orderly.extend neat

theorem step (orderly : Orderly state.written) (newline : '\n' ∉ line) :
    Orderly (state.step line).written := by
  by_cases blank : words line = []
  · rw [Collapsing.step_of_blank blank]
    exact orderly
  · rw [Collapsing.step_of_words blank]
    exact orderly.place (neat_trim_squeeze blank newline)

theorem run (orderly : Orderly state.written) (s : List Char) :
    Orderly (state.run s).written := by
  have newlines : ∀ line ∈ s.splitOn '\n', '\n' ∉ line := fun _ => newline_notMem_of_mem_splitOn
  rw [Collapsing.run]
  generalize s.splitOn '\n' = l at newlines
  induction l generalizing state with
  | nil => exact orderly
  | cons line l ih =>
    rw [List.forall_mem_cons] at newlines
    exact ih (orderly.step newlines.1) newlines.2

/-- Orderly lines are written as they are read. -/
theorem replay (orderly : Orderly written) :
    written.reverse.foldl Collapsing.step ⟨[], false⟩ = ⟨written, false⟩ := by
  induction orderly with
  | none => rfl
  | first neat =>
    rw [List.reverse_singleton, List.foldl_cons, Collapsing.step_of_words neat.words_ne_nil,
      neat.trim_squeeze]
    rfl
  | item neat both orderly ih =>
    rw [List.reverse_cons, List.foldl_concat, ih, Collapsing.step_of_words neat.words_ne_nil,
      neat.trim_squeeze]
    simp [Collapsing.place, both.1, both.2]
  | block neat orderly ih =>
    rw [List.reverse_cons, List.foldl_concat, List.reverse_cons, List.foldl_concat, ih,
      Collapsing.step_of_blank words_nil, Collapsing.step_of_words neat.words_ne_nil,
      neat.trim_squeeze]
    rfl

theorem neat_of_mem (orderly : Orderly written) : ∀ line ∈ written, line ≠ [] → Neat line := by
  induction orderly with
  | none => simp
  | first neat => simpa using fun _ => neat
  | item neat _ _ ih => exact List.forall_mem_cons.2 ⟨fun _ => neat, ih⟩
  | block neat _ ih =>
    exact List.forall_mem_cons.2 ⟨fun _ => neat, List.forall_mem_cons.2 ⟨absurd rfl, ih⟩⟩

theorem splitOn_stacked (orderly : Orderly written) (ne : written ≠ []) :
    (stacked written).splitOn '\n' = written.reverse := by
  refine List.splitOn_intercalate '\n' (fun line hl => ?_) (by simpa using ne)
  by_cases empty : line = []
  · simp [empty]
  · exact (orderly.neat_of_mem line (List.mem_reverse.1 hl) empty).newline

theorem collapse_stacked (orderly : Orderly written) :
    collapse (stacked written) = stacked written := by
  by_cases none : written = []
  · rw [none]
    rfl
  · rw [collapse_eq, Collapsing.run, orderly.splitOn_stacked none, orderly.replay]

end Orderly

/-! ## Collapsed texts -/

/-- Whether exactly one of two lines is empty, or both are items. -/
def Separated (a b : List Char) : Prop :=
  (a = [] ↔ b ≠ []) ∨ isItem a = true ∧ isItem b = true

theorem separated_comm : Separated a b ↔ Separated b a := by
  rw [Separated, Separated, and_comm (b := isItem b = true)]
  exact or_congr_left (by tauto)

theorem separated_nil_left (ne : b ≠ []) : Separated [] b :=
  .inl (iff_of_true rfl ne)

/-- Whether a text has no white space that collapsing would take away or put elsewhere. -/
structure Collapsed (t : List Char) : Prop where
  /-- No line has white space at an end. -/
  trimmed : ∀ line ∈ t.splitOn '\n', trim line = line
  /-- The only spaces are blanks. -/
  blank : ∀ c ∈ t, isSpace c = true → c = ' '
  /-- No two spaces stand side by side. -/
  single : t.IsChain NotBothSpaces
  /-- The first and the last line are not empty. -/
  ends : t ≠ [] → (∀ line ∈ (t.splitOn '\n').head?, line ≠ []) ∧
    ∀ line ∈ (t.splitOn '\n').getLast?, line ≠ []
  /-- Of two lines one behind the other exactly one is empty, or both are items. -/
  apart : (t.splitOn '\n').IsChain Separated

theorem collapsed_nil : Collapsed [] where
  trimmed := by
    rw [List.splitOn_nil]
    exact List.forall_mem_singleton.2 rfl
  blank := by simp
  single := .nil
  ends := absurd rfl
  apart := .singleton []

namespace Orderly

theorem isChain (orderly : Orderly written) : written.IsChain Separated := by
  induction orderly with
  | none => exact .nil
  | first => exact .singleton _
  | item _ both _ ih => exact List.isChain_cons_cons.2 ⟨.inr both.symm, ih⟩
  | block neat orderly ih =>
    refine List.isChain_cons_cons.2 ⟨separated_comm.1 (separated_nil_left neat.framed.ne), ?_⟩
    exact List.isChain_cons_cons.2 ⟨separated_nil_left orderly.neat_head.framed.ne, ih⟩

theorem getLast_ne_nil (orderly : Orderly written) : ∀ line ∈ written.getLast?, line ≠ [] := by
  induction orderly with
  | none => simp
  | first neat => simpa using neat.framed.ne
  | item _ _ _ ih => simpa using ih
  | block _ _ ih => simpa using ih

theorem head_ne_nil (orderly : Orderly written) : ∀ line ∈ written.head?, line ≠ [] := by
  intro line hl
  cases written with
  | nil => cases hl
  | cons last rest =>
    cases hl
    exact orderly.neat_head.framed.ne

theorem collapsed (orderly : Orderly written) : Collapsed (stacked written) := by
  by_cases none : written = []
  · rw [none]
    exact collapsed_nil
  have split := orderly.splitOn_stacked none
  have neat (line) (hl : line ∈ written.reverse) (ne : line ≠ []) : Neat line :=
    orderly.neat_of_mem line (List.mem_reverse.1 hl) ne
  refine ⟨fun line hl => ?_, ?_, ?_, fun _ => ⟨?_, ?_⟩, ?_⟩
  · by_cases empty : line = []
    · rw [empty]
      rfl
    · exact (neat line (split ▸ hl) empty).framed.trim_eq
  · refine (forall_mem_joinLines_iff (by decide) _).2 fun line hl c hc => ?_
    exact (neat line hl (List.ne_nil_of_mem hc)).blank c hc
  · refine (isChain_joinLines_iff (fun _ => .inr rfl) (fun _ => .inl rfl) _).2 fun line hl => ?_
    by_cases empty : line = []
    · rw [empty]
      exact .nil
    · exact (neat line hl empty).single
  · rw [split, List.head?_reverse]
    exact orderly.getLast_ne_nil
  · rw [split, List.getLast?_reverse]
    exact orderly.head_ne_nil
  · rw [split, List.isChain_reverse]
    exact orderly.isChain.imp fun _ _ => separated_comm.1

end Orderly

/-- Neat lines that are apart from each other are orderly. -/
theorem orderly_of_isChain : ∀ {written : List (List Char)},
    (∀ line ∈ written, line ≠ [] → Neat line) → (∀ line ∈ written.head?, line ≠ []) →
    (∀ line ∈ written.getLast?, line ≠ []) → written.IsChain Separated → Orderly written
  | [], _, _, _, _ => .none
  | [line], neat, head, _, _ => .first (neat line (by simp) (head line rfl))
  | [_, []], _, _, last, _ => absurd rfl (last [] rfl)
  | line :: [] :: next :: rest, neat, head, last, chain => by
    rw [List.isChain_cons_cons, List.isChain_cons_cons] at chain
    have filled : next ≠ [] := by
      rcases chain.2.1 with one | ⟨item, -⟩
      · exact one.1 rfl
      · cases item
    refine .block (neat line (by simp) (head line rfl)) (orderly_of_isChain ?_ ?_ last chain.2.2)
    · exact fun l hl => neat l (List.mem_cons_of_mem _ (List.mem_cons_of_mem _ hl))
    · simpa using filled
  | line :: (c :: r) :: rest, neat, head, last, chain => by
    rw [List.isChain_cons_cons] at chain
    have both : isItem line = true ∧ isItem (c :: r) = true := by
      refine chain.1.resolve_left fun one => ?_
      exact head line rfl (one.2 (List.cons_ne_nil c r))
    refine .item (neat line (by simp) (head line rfl)) both.symm
      (orderly_of_isChain ?_ ?_ last chain.2)
    · exact fun l hl => neat l (List.mem_cons_of_mem _ hl)
    · simp

theorem Collapsed.exists_orderly (collapsed : Collapsed t) :
    ∃ written, Orderly written ∧ t = stacked written := by
  by_cases none : t = []
  · exact ⟨[], .none, none⟩
  obtain ⟨first, last⟩ := collapsed.ends none
  have whole : joinLines (t.splitOn '\n') = t := joinLines_splitOn t
  have blank := collapsed.blank
  have single := collapsed.single
  rw [← whole, forall_mem_joinLines_iff (by decide)] at blank
  rw [← whole, isChain_joinLines_iff (fun _ => .inr rfl) (fun _ => .inl rfl)] at single
  refine ⟨(t.splitOn '\n').reverse, orderly_of_isChain (fun line hl ne => ?_) ?_ ?_ ?_, ?_⟩
  · have hl := List.mem_reverse.1 hl
    have trimmed := collapsed.trimmed line hl
    exact ⟨⟨ne, trimmed ▸ isBlank_head?_trim line, trimmed ▸ firm_trim line⟩,
      newline_notMem_of_mem_splitOn hl, blank line hl, single line hl⟩
  · rwa [List.head?_reverse]
  · rwa [List.getLast?_reverse]
  · rw [List.isChain_reverse]
    exact collapsed.apart.imp fun _ _ => separated_comm.1
  · rw [stacked, List.reverse_reverse, whole]

theorem collapsed_collapse (s : List Char) : Collapsed (collapse s) := by
  rw [collapse_eq]
  exact (Orderly.none.run s).collapsed

/-- Collapsing changes every text but those that are collapsed. -/
theorem collapse_eq_self_iff : collapse t = t ↔ Collapsed t := by
  constructor
  · intro same
    rw [← same]
    exact collapsed_collapse t
  · intro collapsed
    obtain ⟨written, orderly, rfl⟩ := collapsed.exists_orderly
    exact orderly.collapse_stacked

/-- Every text becomes a collapsed one with the same words, and only collapsed texts stay as they
are. -/
theorem collapse_normal (s : List Char) : Collapsed (collapse s) ∧ words (collapse s) = words s ∧
    collapse (collapse s) = collapse s ∧ (collapse s = s ↔ Collapsed s) :=
  ⟨collapsed_collapse s, words_collapse s, collapse_eq_self_iff.2 (collapsed_collapse s),
    collapse_eq_self_iff⟩

/-- A line becomes an item when it goes on, and the text stays as it is from then on. -/
example : collapse "Modes:\n\n-\nfast\n- safe".toList = "Modes:\n\n- fast\n- safe".toList := by
  decide +kernel

end DocIndex.Markup
