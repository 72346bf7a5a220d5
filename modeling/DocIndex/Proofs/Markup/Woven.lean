import DocIndex.Proofs.Markup.Whitespace

/-!
# Words with gaps between them

In a paragraph or an item, words are kept apart by gaps: any white space without an empty line. A
text is `Woven` if it consists of the pieces of a line in this way; such a text is collapsed to that
line (`Woven.collapse_eq`), and the items of a list to one line each (`collapse_items`).
-/

namespace DocIndex.Markup

open Text Collapsing

variable {s t : List Char} {state : Collapsing}

/-! ## Pieces and gaps -/

/-- A piece of text that is no item mark and no part of a placeholder, without white space. -/
structure Chunk (w : List Char) : Prop where
  ne : w ≠ []
  solid : ∀ c ∈ w, isBlank c = false
  undashed : w ≠ ['-']
  unmarked : '\x01' ∉ w

/-- White space that keeps two words of a paragraph apart: spaces, tabs and line breaks without an
empty line. -/
structure IsGap (g : List Char) : Prop where
  ne : g ≠ []
  blank : ∀ c ∈ g, c = ' ' ∨ c = '\t' ∨ c = '\r' ∨ c = '\n'
  oneBreak : g.count '\n' ≤ 1

/-- Whether a text consists of the pieces of a line with gaps in the place of its blanks. -/
inductive Woven : (text line : List Char) → Prop
  | chunk {w : List Char} : Chunk w → Woven w w
  | gap {w g s t : List Char} : Chunk w → IsGap g → Woven s t →
    Woven (w ++ (g ++ s)) (w ++ ' ' :: t)

variable {w g m : List Char}

theorem IsGap.isBlank (gap : IsGap g) : ∀ c ∈ g, isBlank c = true := by
  intro c hc
  rcases gap.blank c hc with rfl | rfl | rfl | rfl <;> decide

theorem IsGap.isSpace_or (gap : IsGap g) : ∀ c ∈ g, isSpace c = true ∨ c = '\n' := by
  intro c hc
  rcases gap.blank c hc with rfl | rfl | rfl | rfl <;> decide

namespace Chunk

theorem prepend (chunk : Chunk w) (mark : ∀ c ∈ m, isBlank c = false ∧ c ≠ '\x01') :
    Chunk (m ++ w) where
  ne := by simp [chunk.ne]
  solid := by
    simp only [List.forall_mem_append]
    exact ⟨fun c hc => (mark c hc).1, chunk.solid⟩
  undashed := by
    rw [Ne, List.append_eq_singleton_iff]
    rintro (⟨-, same⟩ | ⟨-, none⟩)
    · exact chunk.undashed same
    · exact chunk.ne none
  unmarked := by
    rw [List.mem_append, not_or]
    exact ⟨fun hm => (mark _ hm).2 rfl, chunk.unmarked⟩

theorem postpend (chunk : Chunk w) (mark : ∀ c ∈ m, isBlank c = false ∧ c ≠ '\x01') :
    Chunk (w ++ m) where
  ne := by simp [chunk.ne]
  solid := by
    simp only [List.forall_mem_append]
    exact ⟨chunk.solid, fun c hc => (mark c hc).1⟩
  undashed := by
    rw [Ne, List.append_eq_singleton_iff]
    rintro (⟨none, -⟩ | ⟨same, -⟩)
    · exact chunk.ne none
    · exact chunk.undashed same
  unmarked := by
    rw [List.mem_append, not_or]
    exact ⟨chunk.unmarked, fun hm => (mark _ hm).2 rfl⟩

theorem words_eq (chunk : Chunk w) : words w = [w] :=
  words_eq_singleton chunk.ne chunk.solid

theorem words_ne_nil (chunk : Chunk w) (front back : List Char) :
    words (front ++ (w ++ back)) ≠ [] := by
  obtain ⟨c, r, rfl⟩ := List.exists_cons_of_ne_nil chunk.ne
  exact Text.words_ne_nil (c := c) (by simp) (chunk.solid c List.mem_cons_self)

theorem isItem (chunk : Chunk w) : isItem w = false := by
  match w with
  | [] => rfl
  | [x] => simp [Markup.isItem, List.isPrefixOf]
  | x :: y :: r =>
    have other : (' ' == y) = false := by
      rw [beq_eq_false_iff_ne]
      rintro rfl
      exact absurd (chunk.solid ' ' (by simp)) (by decide)
    simp [Markup.isItem, List.isPrefixOf, other]

end Chunk

namespace Woven

variable {s' t' : List Char}

theorem append (woven : Woven s t) (gap : IsGap g) (woven' : Woven s' t') :
    Woven (s ++ (g ++ s')) (t ++ ' ' :: t') := by
  induction woven with
  | chunk chunk => exact .gap chunk gap woven'
  | gap chunk gap' _ ih => simpa using Woven.gap chunk gap' ih

theorem prepend (woven : Woven s t) (mark : ∀ c ∈ m, isBlank c = false ∧ c ≠ '\x01') :
    Woven (m ++ s) (m ++ t) := by
  cases woven with
  | chunk chunk => exact .chunk (chunk.prepend mark)
  | gap chunk gap woven => simpa using Woven.gap (chunk.prepend mark) gap woven

theorem postpend (woven : Woven s t) (mark : ∀ c ∈ m, isBlank c = false ∧ c ≠ '\x01') :
    Woven (s ++ m) (t ++ m) := by
  induction woven with
  | chunk chunk => exact .chunk (chunk.postpend mark)
  | gap chunk gap _ ih => simpa using Woven.gap chunk gap ih

/-- Neither the text nor the line starts or ends in white space. -/
theorem framed (woven : Woven s t) : Framed s ∧ Framed t := by
  induction woven with
  | chunk chunk =>
    have framed := framed_of_forall chunk.ne chunk.solid
    exact ⟨framed, framed⟩
  | @gap w g s t chunk gap _ ih =>
    have framed := framed_of_forall chunk.ne chunk.solid
    exact ⟨framed.append ih.1 g, framed.append ih.2 [' ']⟩

theorem unmarked (woven : Woven s t) : '\x01' ∉ t := by
  induction woven with
  | chunk chunk => exact chunk.unmarked
  | gap chunk _ _ ih => simp [chunk.unmarked, ih]

theorem words_ne_nil (woven : Woven s t) : words s ≠ [] := by
  cases woven with
  | chunk chunk => simpa using chunk.words_ne_nil [] []
  | @gap w g s t chunk => exact chunk.words_ne_nil [] (g ++ s)

theorem oneLine_eq (woven : Woven s t) : oneLine s = t := by
  induction woven with
  | chunk chunk => rw [oneLine, chunk.words_eq, List.intercalate_singleton]
  | gap chunk gap woven ih =>
    rw [oneLine, words_append_append gap.ne gap.isBlank, chunk.words_eq, List.singleton_append,
      intercalate_cons_of_ne_nil woven.words_ne_nil, ← oneLine, ih]
    rfl

end Woven

/-! ## Starts of items -/

theorem isItem_append {a : List Char} (ne : a ≠ []) (dash : a ≠ ['-']) (b : List Char) :
    isItem (a ++ ' ' :: b) = isItem a := by
  match a with
  | [] => exact absurd rfl ne
  | [x] =>
    have other : ('-' == x) = false := by
      rw [beq_eq_false_iff_ne]
      rintro rfl
      exact dash rfl
    simp [isItem, List.isPrefixOf, other]
  | x :: y :: r => simp [isItem, List.isPrefixOf]

theorem Woven.isItem (woven : Woven s t) : isItem t = false := by
  cases woven with
  | chunk chunk => exact chunk.isItem
  | gap chunk => rw [isItem_append chunk.ne chunk.undashed, chunk.isItem]

/-- A line that starts no item goes on with the line in front of it. -/
theorem place_place {a b : List Char} (ne : a ≠ []) (dash : a ≠ ['-']) (item : isItem b = false)
    (state : Collapsing) : (state.place a).place b = state.place (a ++ ' ' :: b) := by
  obtain ⟨written, broken⟩ := state
  simp only [place, isItem_append ne dash]
  cases written with
  | nil => simp [item]
  | cons last rest =>
    dsimp only
    by_cases breaks : (broken || (Markup.isItem a && !Markup.isItem last)) = true
    · rw [if_pos breaks, if_pos breaks]
      simp [item]
    · rw [if_neg breaks, if_neg breaks]
      by_cases items : Markup.isItem a = true
      · rw [if_pos items, if_pos items]
        simp [item]
      · rw [if_neg items, if_neg items]
        simp [item]

/-! ## Lines of a paragraph -/

/-- What may stand in front of further words on a line. -/
structure Front (s : List Char) : Prop where
  spaces : ∀ c ∈ s, isBlank c = true → isSpace c = true
  apart : ∀ t, words (s ++ t) = words s ++ words t

theorem front_nil : Front [] :=
  ⟨by simp, fun _ => rfl⟩

theorem front_dash : Front ['-', ' '] :=
  ⟨List.forall_mem_cons.2 ⟨fun blank => absurd blank (by decide),
    List.forall_mem_singleton.2 fun _ => rfl⟩, words_append_cons (by decide) ['-']⟩

theorem front_of_spaces (spaces : ∀ c ∈ s, isSpace c = true) : Front s where
  spaces c hc _ := spaces c hc
  apart t := by
    have blank : ∀ c ∈ s, isBlank c = true := fun c hc => isBlank_of_isSpace (spaces c hc)
    rw [words_append_of_blank_left blank, words_of_blank blank, List.nil_append]

theorem Front.spaces_append (front : Front s) (chunk : Chunk w)
    (spaces : ∀ c ∈ g, isSpace c = true) :
    ∀ c ∈ s ++ (w ++ g), isBlank c = true → isSpace c = true := by
  simp only [List.forall_mem_append]
  refine ⟨front.spaces, fun c hc blank => ?_, fun c hc _ => spaces c hc⟩
  simp [chunk.solid c hc] at blank

theorem Front.append (front : Front s) (chunk : Chunk w) (ne : g ≠ [])
    (spaces : ∀ c ∈ g, isSpace c = true) : Front (s ++ (w ++ g)) where
  spaces := front.spaces_append chunk spaces
  apart t := by
    have apart := words_append_append ne fun c hc => isBlank_of_isSpace (spaces c hc)
    have none : words (s ++ (w ++ g)) = words (s ++ w) := by simpa using apart (s ++ w) []
    rw [none]
    simpa using apart (s ++ w) t

/-- A gap holds one line break or none. -/
theorem IsGap.spaces_or_break (gap : IsGap g) : (∀ c ∈ g, isSpace c = true) ∨
    ∃ g₁ g₂, g = g₁ ++ '\n' :: g₂ ∧ (∀ c ∈ g₁, isSpace c = true) ∧ ∀ c ∈ g₂, isSpace c = true := by
  by_cases newline : '\n' ∈ g
  · obtain ⟨g₁, g₂, rfl⟩ := List.append_of_mem newline
    have few := gap.oneBreak
    rw [List.count_append, List.count_cons_self] at few
    have front : '\n' ∉ g₁ := List.count_eq_zero.1 (by omega)
    have back : '\n' ∉ g₂ := List.count_eq_zero.1 (by omega)
    refine .inr ⟨g₁, g₂, rfl, fun c hc => ?_, fun c hc => ?_⟩
    · exact (gap.isSpace_or c (by simp [hc])).resolve_right fun same => front (same ▸ hc)
    · exact (gap.isSpace_or c (by simp [hc])).resolve_right fun same => back (same ▸ hc)
  · exact .inl fun c hc => (gap.isSpace_or c hc).resolve_right fun same => newline (same ▸ hc)

/-- A single line is written as its words. -/
theorem run_line (spaces : ∀ c ∈ s, isBlank c = true → isSpace c = true) (filled : words s ≠ [])
    (state : Collapsing) : state.run s = state.place (oneLine s) := by
  have line : '\n' ∉ s := fun newline => absurd (spaces _ newline (by decide)) (by decide)
  rw [Collapsing.run, List.splitOn_eq_singleton line, List.foldl_cons, List.foldl_nil,
    step_of_words filled, trim_squeeze spaces]

theorem collapse_line (spaces : ∀ c ∈ s, isBlank c = true → isSpace c = true)
    (filled : words s ≠ []) : collapse s = oneLine s := by
  rw [Markup.collapse_eq, run_line spaces filled]
  simp [place, stacked, joinLines]

/-- A line that ends with a chunk has its word for the last one. -/
theorem Front.words_line (front : Front s) (chunk : Chunk w) (blank : ∀ c ∈ g, isBlank c = true) :
    words (s ++ (w ++ g)) = words s ++ [w] := by
  rw [front.apart, words_append_of_blank_right blank, chunk.words_eq]

theorem Front.oneLine_ne_dash (front : Front s) (chunk : Chunk w)
    (blank : ∀ c ∈ g, isBlank c = true) : oneLine (s ++ (w ++ g)) ≠ ['-'] := by
  intro same
  have dash := words_oneLine (s ++ (w ++ g))
  rw [same, front.words_line chunk blank, words_eq_singleton (by decide)
    (List.forall_mem_singleton.2 rfl), eq_comm, List.append_eq_singleton_iff] at dash
  rcases dash with ⟨-, same⟩ | ⟨-, none⟩
  · exact chunk.undashed (List.cons.inj same).1
  · cases none

/-- Words with gaps between them are written as one line, with what stands in front of them. -/
theorem Woven.run_append (woven : Woven s t) {front : List Char} (hf : Front front)
    (state : Collapsing) : state.run (front ++ s) = state.place (oneLine (front ++ s)) := by
  induction woven generalizing front state with
  | @chunk w chunk =>
    have spaces := hf.spaces_append chunk (g := []) (by simp)
    rw [List.append_nil] at spaces
    exact run_line spaces (by simpa using chunk.words_ne_nil front []) state
  | @gap w g s t chunk gap woven ih =>
    obtain spaces | ⟨g₁, g₂, rfl, spaces₁, spaces₂⟩ := gap.spaces_or_break
    · simpa using ih (hf.append chunk gap.ne spaces) state
    · -- The line ends in the gap, and what follows does not start an item.
      have blank₁ : ∀ c ∈ g₁, isBlank c = true := fun c hc => isBlank_of_isSpace (spaces₁ c hc)
      have blank₂ : ∀ c ∈ g₂, isBlank c = true := fun c hc => isBlank_of_isSpace (spaces₂ c hc)
      have shape : front ++ (w ++ (g₁ ++ '\n' :: g₂ ++ s)) =
          front ++ (w ++ g₁) ++ '\n' :: (g₂ ++ s) := by simp
      have first := hf.words_line chunk blank₁
      have second : words (g₂ ++ s) = words s := words_append_of_blank_left blank₂ s
      rw [shape, run_append_cons, run_line (hf.spaces_append chunk spaces₁) (by simp [first]),
        ih (front_of_spaces spaces₂),
        place_place (by simp [oneLine_eq_nil_iff, first]) (hf.oneLine_ne_dash chunk blank₁)]
      · rw [oneLine, oneLine, oneLine, words_append_cons (by decide) (front ++ (w ++ g₁)),
          intercalate_append (by simp [first]) (by rw [second]; exact woven.words_ne_nil)]
        rfl
      · rw [oneLine, second, ← oneLine, woven.oneLine_eq]
        exact woven.isItem

/-- Words with gaps between them are collapsed to one line. -/
theorem Woven.collapse_eq (woven : Woven s t) : collapse s = t := by
  have run := woven.run_append front_nil ⟨[], false⟩
  rw [List.nil_append] at run
  rw [Markup.collapse_eq, run, woven.oneLine_eq]
  simp [place, stacked, joinLines]

theorem Woven.run_item (woven : Woven s t) (state : Collapsing) :
    state.run ('-' :: ' ' :: s) = state.place ('-' :: ' ' :: t) := by
  have item : oneLine (['-', ' '] ++ s) = '-' :: ' ' :: t := by
    have dash : words ['-', ' '] = [['-']] := by decide
    rw [oneLine, front_dash.apart, dash, List.singleton_append,
      intercalate_cons_of_ne_nil woven.words_ne_nil, ← oneLine, woven.oneLine_eq]
    rfl
  rw [← item]
  exact woven.run_append front_dash state

/-! ## Items -/

theorem run_flatMap (l : List (List Char)) (state : Collapsing) :
    state.run (s ++ l.flatMap ('\n' :: ·)) = l.foldl run (state.run s) := by
  induction l generalizing s state with
  | nil => simp
  | cons line l ih =>
    rw [List.flatMap_cons, List.cons_append, run_append_cons, ih]
    rfl

/-- Items are written on lines of their own. -/
theorem written_foldl_place {l : List (List Char)} (items : ∀ line ∈ l, isItem line = true)
    {w : List (List Char)} {b : Bool}
    (above : w = [] ∨ b = false ∧ ∀ last ∈ w.head?, isItem last = true) :
    (l.foldl place ⟨w, b⟩).written = l.reverse ++ w := by
  induction l generalizing w b with
  | nil => rfl
  | cons line l ih =>
    rw [List.forall_mem_cons] at items
    have next : place ⟨w, b⟩ line = ⟨line :: w, false⟩ := by
      cases w with
      | nil => rfl
      | cons last rest =>
        obtain ⟨rfl, item⟩ := above.resolve_left (List.cons_ne_nil last rest)
        simp [place, items.1, item last rfl]
    rw [List.foldl_cons, next, ih items.2 (.inr ⟨rfl, by simpa using items.1⟩)]
    simp

/-- Items are collapsed to one line each. -/
theorem collapse_items {ι : Type} {l : List ι} {text line : ι → List Char}
    (woven : ∀ i ∈ l, Woven (text i) (line i)) :
    collapse (l.flatMap fun i => '\n' :: '-' :: ' ' :: text i) =
      joinLines (l.map fun i => '-' :: ' ' :: line i) := by
  have lines : (l.flatMap fun i => '\n' :: '-' :: ' ' :: text i) =
      [] ++ (l.map fun i => '-' :: ' ' :: text i).flatMap ('\n' :: ·) := by
    rw [List.flatMap_map, List.nil_append]
  have placed (state : Collapsing) : (l.map fun i => '-' :: ' ' :: text i).foldl run state =
      (l.map fun i => '-' :: ' ' :: line i).foldl place state := by
    rw [List.foldl_map, List.foldl_map]
    exact List.foldl_ext _ _ _ fun st i hi => (woven i hi).run_item st
  have items : ∀ s ∈ l.map fun i => '-' :: ' ' :: line i, isItem s = true := by
    rw [List.forall_mem_map]
    exact fun i _ => rfl
  rw [lines, collapse_eq, run_flatMap, run_nil, placed, written_foldl_place items (.inl rfl)]
  simp [stacked]

end DocIndex.Markup
