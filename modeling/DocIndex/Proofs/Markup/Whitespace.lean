import Mathlib.Data.List.Chain
import DocIndex.Markup.Whitespace
import DocIndex.Proofs.Text.Words

/-!
# White space in prose

What is written after the lines of a text is that of one line more at a time (`step_of_blank`,
`step_of_words`), and collapsing keeps all words of a text in order (`words_collapse`).
-/

namespace DocIndex.Markup

open Text

variable {s t : List Char} {state : Collapsing}

/-! ## Runs of spaces -/

theorem isBlank_of_isSpace {c : Char} (h : isSpace c = true) : isBlank c = true := by
  simp only [isSpace, Bool.or_eq_true, beq_iff_eq] at h
  rcases h with ((rfl | rfl) | rfl) | rfl <;> decide

theorem squeeze_cons_of_not {c : Char} (h : isSpace c = false) (r : List Char) :
    squeeze (c :: r) = c :: squeeze r := by
  rw [squeeze, h]
  rfl

/-- A run of spaces becomes one blank. -/
theorem exists_squeeze_cons {c : Char} (h : isSpace c = true) (r : List Char) :
    ∃ rest, squeeze (c :: r) = ' ' :: rest ∧
      (squeeze r = ' ' :: rest ∨ squeeze r = rest ∧ ∀ x ∈ rest.head?, x ≠ ' ') := by
  rw [squeeze, if_pos h]
  split
  · next rest hr => exact ⟨rest, rfl, .inl hr⟩
  · next other =>
    refine ⟨squeeze r, rfl, .inr ⟨rfl, fun x hx => ?_⟩⟩
    rintro rfl
    obtain ⟨tail, ht⟩ : ∃ tail, squeeze r = ' ' :: tail := by
      cases hs : squeeze r with
      | nil => simp [hs] at hx
      | cons y tail => simp_all
    exact other tail ht

theorem words_append_squeeze (s front : List Char) :
    words (front ++ squeeze s) = words (front ++ s) := by
  induction s generalizing front with
  | nil => rfl
  | cons c r ih =>
    cases h : isSpace c with
    | false =>
      rw [squeeze_cons_of_not h]
      simpa using ih (front ++ [c])
    | true =>
      obtain ⟨rest, squeezed, tail⟩ := exists_squeeze_cons h r
      have blank : isBlank ' ' = true := by decide
      have same : words rest = words r := by
        rw [← List.nil_append r, ← ih []]
        rcases tail with tail | ⟨tail, -⟩
        · rw [tail, List.nil_append, words_cons_of_blank blank]
        · rw [tail, List.nil_append]
      rw [squeezed, words_append_cons blank, words_append_cons (isBlank_of_isSpace h), same]

theorem words_squeeze (s : List Char) : words (squeeze s) = words s :=
  words_append_squeeze s []

theorem mem_of_mem_squeeze {c : Char} (h : c ∈ squeeze s) : c = ' ' ∨ c ∈ s := by
  induction s with
  | nil => simp [squeeze] at h
  | cons x r ih =>
    cases hx : isSpace x with
    | false =>
      rw [squeeze_cons_of_not hx, List.mem_cons] at h
      rcases h with rfl | h
      · exact .inr List.mem_cons_self
      · exact (ih h).imp_right (List.mem_cons_of_mem x)
    | true =>
      obtain ⟨rest, squeezed, tail⟩ := exists_squeeze_cons hx r
      rw [squeezed, List.mem_cons] at h
      rcases h with rfl | h
      · exact .inl rfl
      · have inside : c ∈ squeeze r := by
          rcases tail with tail | ⟨tail, -⟩
          · exact tail ▸ List.mem_cons_of_mem _ h
          · exact tail ▸ h
        exact (ih inside).imp_right (List.mem_cons_of_mem x)

theorem eq_blank_of_mem_squeeze {c : Char} (h : c ∈ squeeze s) (space : isSpace c = true) :
    c = ' ' := by
  induction s with
  | nil => simp [squeeze] at h
  | cons x r ih =>
    cases hx : isSpace x with
    | false =>
      rw [squeeze_cons_of_not hx, List.mem_cons] at h
      rcases h with rfl | h
      · simp [hx] at space
      · exact ih h
    | true =>
      obtain ⟨rest, squeezed, tail⟩ := exists_squeeze_cons hx r
      rw [squeezed, List.mem_cons] at h
      rcases h with rfl | h
      · rfl
      · refine ih ?_
        rcases tail with tail | ⟨tail, -⟩
        · exact tail ▸ List.mem_cons_of_mem _ h
        · exact tail ▸ h

/-- No two spaces stand side by side any more. -/
theorem isChain_squeeze (s : List Char) :
    (squeeze s).IsChain fun c d => isSpace c = false ∨ isSpace d = false := by
  induction s with
  | nil => exact .nil
  | cons c r ih =>
    cases h : isSpace c with
    | false =>
      rw [squeeze_cons_of_not h]
      exact List.isChain_cons.2 ⟨fun _ _ => .inl h, ih⟩
    | true =>
      obtain ⟨rest, squeezed, tail⟩ := exists_squeeze_cons h r
      rw [squeezed]
      rcases tail with tail | ⟨tail, other⟩
      · rwa [← tail]
      · refine List.isChain_cons.2 ⟨fun x hx => .inr ?_, tail ▸ ih⟩
        by_contra space
        have listed : x ∈ squeeze r := tail ▸ List.mem_of_mem_head? hx
        exact other x hx (eq_blank_of_mem_squeeze listed (by simpa using space))

theorem isChain_trim_squeeze (s : List Char) :
    (trim (squeeze s)).IsChain fun c d => isSpace c = false ∨ isSpace d = false :=
  List.IsChain.infix (isChain_squeeze s) (trim_isInfix _)

/-- A line in which all white space is spaces becomes its words with single blanks. -/
theorem trim_squeeze (spaces : ∀ c ∈ s, isBlank c = true → isSpace c = true) :
    trim (squeeze s) = oneLine s := by
  have part := trim_isInfix (squeeze s)
  have solid : ∀ c ∈ squeeze s, isSpace c = false → isBlank c = false := by
    intro c hc space
    by_contra blank
    have blank : isBlank c = true := by simpa using blank
    rcases mem_of_mem_squeeze hc with rfl | hc
    · cases space
    · simp [spaces c hc blank] at space
  have tight : Tight (trim (squeeze s)) := by
    refine ⟨fun c hc blank => ?_, ?_, isBlank_head?_trim _, firm_trim _⟩
    · refine eq_blank_of_mem_squeeze (part.subset hc) ?_
      by_contra space
      simp [solid c (part.subset hc) (by simpa using space)] at blank
    · refine (isChain_trim_squeeze s).imp_of_mem_imp fun c d hc hd apart => ?_
      exact apart.imp (solid c (part.subset hc)) (solid d (part.subset hd))
  rw [← tight.eq_oneLine, oneLine, oneLine, words_trim, words_squeeze]

theorem squeeze_append_return (s : List Char) :
    squeeze (s ++ ['\r']) = squeeze s ++ [' '] ∨ squeeze (s ++ ['\r']) = squeeze s := by
  induction s with
  | nil => exact .inl rfl
  | cons c r ih =>
    rw [List.cons_append]
    cases h : isSpace c with
    | false =>
      rw [squeeze_cons_of_not h, squeeze_cons_of_not h, List.cons_append]
      exact ih.imp (congrArg (c :: ·)) (congrArg (c :: ·))
    | true =>
      rw [squeeze, if_pos h, squeeze, if_pos h]
      rcases ih with ih | ih
      · rw [ih]
        cases hr : squeeze r with
        | nil => exact .inr rfl
        | cons x rest =>
          left
          by_cases hx : x = ' '
          · simp [hx]
          · simp [hx]
      · rw [ih]
        exact .inr rfl

/-- A carriage return at the end of a line says nothing. -/
theorem trim_squeeze_append_return (s : List Char) :
    trim (squeeze (s ++ ['\r'])) = trim (squeeze s) := by
  rcases squeeze_append_return s with longer | same
  · rw [longer, trim_append_of_blank (by decide)]
  · rw [same]

/-! ## One line more -/

namespace Collapsing

/-- What is written after one more line that holds words. -/
def place (state : Collapsing) (line : List Char) : Collapsing :=
  ⟨match state.written with
    | [] => [line]
    | last :: rest =>
      if state.broken || (isItem line && !isItem last) then line :: [] :: last :: rest
      else if isItem line then line :: last :: rest
      else (last ++ ' ' :: line) :: rest, false⟩

theorem step_of_blank (blank : words s = []) (state : Collapsing) :
    state.step s = { state with broken := true } := by
  have none : trim (squeeze s) = [] := by rw [trim_eq_nil_iff, words_squeeze, blank]
  simp [step, none]

theorem step_of_words (filled : words s ≠ []) (state : Collapsing) :
    state.step s = state.place (trim (squeeze s)) := by
  have some_word : (trim (squeeze s)).isEmpty = false := by
    rw [List.isEmpty_eq_false_iff, Ne, trim_eq_nil_iff, words_squeeze]
    exact filled
  rw [step, place]
  simp only [some_word]
  cases state.written <;> rfl

theorem step_dropReturn (state : Collapsing) (line : List Char) :
    state.step (dropReturn line) = state.step line := by
  rw [dropReturn]
  split_ifs with ends
  · obtain ⟨front, rfl⟩ : ∃ front, line = front ++ ['\r'] :=
      ⟨line.dropLast, (List.dropLast_append_getLast? _ ends).symm⟩
    rw [List.dropLast_concat, step, step, trim_squeeze_append_return]
  · rfl

/-- What is written after the lines of a text. -/
def run (state : Collapsing) (s : List Char) : Collapsing :=
  (s.splitOn '\n').foldl step state

theorem run_append_cons (state : Collapsing) (s t : List Char) :
    state.run (s ++ '\n' :: t) = (state.run s).run t := by
  rw [run, List.splitOn_append_cons_self, List.foldl_append]
  rfl

theorem run_nil (state : Collapsing) : state.run [] = { state with broken := true } := by
  simp [run, step_of_blank words_nil]

theorem run_cons (state : Collapsing) (s : List Char) :
    state.run ('\n' :: s) = ({ state with broken := true } : Collapsing).run s := by
  rw [← run_nil]
  exact run_append_cons state [] s

end Collapsing

/-- The text of lines of which the latest stands first. -/
def stacked (written : List (List Char)) : List Char :=
  joinLines written.reverse

open Collapsing

/-- Line ends do not count, nor does an empty line at the end. -/
theorem written_foldl_lines (state : Collapsing) (s : List Char) :
    ((lines s).foldl step state).written = (state.run s).written := by
  have steps (l : List (List Char)) (state : Collapsing) :
      (l.map dropReturn).foldl step state = l.foldl step state := by
    rw [List.foldl_map]
    exact List.foldl_ext _ _ _ fun st line _ => step_dropReturn st line
  rw [lines, run]
  generalize hp : s.splitOn '\n' = pieces
  have ne : pieces ≠ [] := hp ▸ List.splitOn_ne_nil '\n' s
  obtain ⟨front, last, rfl⟩ := (List.eq_nil_or_concat' pieces).resolve_left ne
  simp only [List.dropLast_concat, List.getLast?_concat, List.foldl_append]
  split
  · next none => cases none
  · next empty =>
    cases empty
    rw [steps, List.foldl_cons, step_of_blank words_nil, List.foldl_nil]
  · next rest other same =>
    cases same
    rw [List.foldl_append, steps]

theorem collapse_eq (s : List Char) : collapse s = stacked (run ⟨[], false⟩ s).written := by
  rw [collapse, written_foldl_lines, stacked]

/-! ## Words are kept -/

theorem words_joinLines (l : List (List Char)) : words (joinLines l) = l.flatMap words :=
  words_intercalate (List.cons_ne_nil _ _) (List.forall_mem_singleton.2 rfl) l

theorem words_lines (s : List Char) : words s = (s.splitOn '\n').flatMap words := by
  rw [← words_joinLines, joinLines, List.intercalate_splitOn]

theorem words_stacked_place (state : Collapsing) (line : List Char) :
    words (stacked (state.place line).written) = words (stacked state.written) ++ words line := by
  obtain ⟨written, broken⟩ := state
  simp only [stacked, words_joinLines, place]
  cases written with
  | nil => simp
  | cons last rest =>
    dsimp only
    split_ifs
    · simp
    · simp
    · simp [words_append_cons (show isBlank ' ' = true by decide)]

theorem words_stacked_foldl (l : List (List Char)) (state : Collapsing) :
    words (stacked (l.foldl step state).written) =
      words (stacked state.written) ++ l.flatMap words := by
  induction l generalizing state with
  | nil => simp
  | cons line l ih =>
    rw [List.foldl_cons, ih, List.flatMap_cons, ← List.append_assoc]
    by_cases blank : words line = []
    · rw [step_of_blank blank, blank, List.append_nil]
    · rw [step_of_words blank, words_stacked_place, words_trim, words_squeeze]

/-- Collapsing keeps the words of a text in order. -/
theorem words_collapse (s : List Char) : words (collapse s) = words s := by
  rw [collapse_eq, run, words_stacked_foldl, ← words_lines]
  rfl

end DocIndex.Markup
