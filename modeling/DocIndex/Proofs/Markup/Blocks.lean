import DocIndex.Proofs.Markup.Collapsed

/-!
# Blocks of prose

Blocks with empty lines around them are collapsed one by one, and one empty line is left between each
two of those that hold words (`collapse_blocks`).
-/

namespace DocIndex.Markup

open Text Collapsing

variable {s t : List Char} {state : Collapsing}

/-! ## Texts put together -/

/-- Texts with one empty line between each two of those that are not empty. -/
def joinBlocks (l : List (List Char)) : List Char :=
  ['\n', '\n'].intercalate (l.filter fun b => !b.isEmpty)

theorem joinBlocks_ne_nil {l : List (List Char)} (ne : (l.filter fun b => !b.isEmpty) ≠ []) :
    joinBlocks l ≠ [] := by
  obtain ⟨b, rest, filled⟩ := List.exists_cons_of_ne_nil ne
  have kept : b ∈ l.filter fun b => !b.isEmpty := filled ▸ List.mem_cons_self
  rw [joinBlocks, filled]
  exact intercalate_ne_nil (by simpa using (List.mem_filter.1 kept).2) _ rest

/-- Texts that are put together already count as one. -/
theorem joinBlocks_joinBlocks (a : List Char) (l : List (List Char)) :
    joinBlocks [a, joinBlocks l] = joinBlocks (a :: l) := by
  by_cases none : (l.filter fun b => !b.isEmpty) = []
  · cases a <;> simp [joinBlocks, none]
  · have filled := joinBlocks_ne_nil none
    cases a with
    | nil =>
      rw [joinBlocks, List.filter_cons_of_neg (by simp), List.filter_cons_of_pos (by simpa)]
      simp [joinBlocks]
    | cons x a =>
      have whole : joinBlocks ((x :: a) :: l) = x :: a ++ (['\n', '\n'] ++ joinBlocks l) := by
        rw [joinBlocks, List.filter_cons_of_pos (by simp), intercalate_cons_of_ne_nil none,
          joinBlocks]
      rw [whole, joinBlocks, List.filter_cons_of_pos (by simp), List.filter_cons_of_pos (by simpa)]
      simp [List.intercalate_cons_cons]

/-! ## Blocks -/

/-- What stands below the lines of a new block. -/
def below : List (List Char) → List (List Char)
  | [] => []
  | last :: rest => [] :: last :: rest

/-- Whether a state is that of a new block on top of the lines `w`. -/
inductive Above (w : List (List Char)) : (top state : Collapsing) → Prop
  | none {b : Bool} : Above w ⟨[], b⟩ ⟨w, true⟩
  | some {last : List Char} {rest : List (List Char)} {b : Bool} :
      Above w ⟨last :: rest, b⟩ ⟨last :: rest ++ below w, b⟩

variable {w : List (List Char)} {top : Collapsing}

theorem Above.place (above : Above w top state) (line : List Char) :
    Above w (top.place line) (state.place line) := by
  cases above with
  | none => cases w <;> exact .some
  | @some last rest b =>
    simp only [Collapsing.place, List.cons_append]
    by_cases breaks : (b || (isItem line && !isItem last)) = true
    · rw [if_pos breaks, if_pos breaks]
      exact .some
    · rw [if_neg breaks, if_neg breaks]
      by_cases item : isItem line = true
      · rw [if_pos item, if_pos item]
        exact .some
      · rw [if_neg item, if_neg item]
        exact .some

theorem Above.step (above : Above w top state) (line : List Char) :
    Above w (top.step line) (state.step line) := by
  by_cases blank : words line = []
  · rw [step_of_blank blank, step_of_blank blank]
    cases above with
    | none => exact .none
    | some => exact .some
  · rw [step_of_words blank, step_of_words blank]
    exact above.place _

theorem Above.run (above : Above w top state) (s : List Char) :
    Above w (top.run s) (state.run s) := by
  rw [Collapsing.run, Collapsing.run]
  generalize s.splitOn '\n' = l
  induction l generalizing top state with
  | nil => exact above
  | cons line l ih => exact ih (above.step line)

/-- Whether the line that was written last, if there is one, is not empty. -/
def Filled (written : List (List Char)) : Prop :=
  ∀ line ∈ written.head?, line ≠ []

theorem Filled.stacked_ne_nil {last : List Char} {rest : List (List Char)}
    (filled : Filled (last :: rest)) : stacked (last :: rest) ≠ [] := by
  have ne : last ≠ [] := filled last rfl
  rw [stacked, joinLines]
  cases rest with
  | nil => simpa using ne
  | cons line rest =>
    rw [List.reverse_cons, intercalate_append (by simp) (by simp)]
    simp

/-- A new block is set apart from the text in front of it. -/
theorem Above.stacked_eq (above : Above w top state) (filled : Filled top.written)
    (filled' : Filled w) :
    stacked state.written = joinBlocks [stacked w, stacked top.written] := by
  cases above with
  | none =>
    cases w with
    | nil => rfl
    | cons last rest => simp [joinBlocks, filled'.stacked_ne_nil, show stacked [] = [] from rfl]
  | @some last rest b =>
    have ne := filled.stacked_ne_nil
    cases w with
    | nil => simp [joinBlocks, ne, below, show stacked [] = [] from rfl]
    | cons last' rest' =>
      have ne' := filled'.stacked_ne_nil
      have apart : stacked (last :: rest ++ below (last' :: rest')) =
          stacked (last' :: rest') ++ (['\n', '\n'] ++ stacked (last :: rest)) := by
        rw [stacked, stacked, stacked, below, List.reverse_append, List.reverse_cons, joinLines,
          intercalate_append (by simp) (by simp), intercalate_append (by simp) (by simp)]
        simp [joinLines]
      rw [apart]
      simp [joinBlocks, ne, ne', List.intercalate_cons_cons]

/-- What stands behind an empty line is collapsed on its own. -/
theorem collapse_append_break (s t : List Char) :
    collapse (s ++ '\n' :: '\n' :: t) = joinBlocks [collapse s, collapse t] := by
  have filled (r : List Char) : Filled (run ⟨[], false⟩ r).written :=
    (Orderly.none.run r).head_ne_nil
  have above : Above (run ⟨[], false⟩ s).written (run ⟨[], false⟩ t)
      (run ⟨(run ⟨[], false⟩ s).written, true⟩ t) := Above.none.run t
  rw [collapse_eq, run_append_cons, run_cons, above.stacked_eq (filled t) (filled s),
    ← collapse_eq, ← collapse_eq]

/-- Blocks with empty lines around them are collapsed one by one. -/
theorem collapse_blocks (blocks : List (List Char)) :
    collapse (blocks.flatMap fun b => ['\n', '\n'] ++ (b ++ ['\n', '\n'])) =
      joinBlocks (blocks.map collapse) := by
  induction blocks with
  | nil => rfl
  | cons b blocks ih =>
    set others := blocks.flatMap fun b => ['\n', '\n'] ++ (b ++ ['\n', '\n'])
    have shape : ['\n', '\n'] ++ (b ++ ['\n', '\n']) ++ others =
        [] ++ '\n' :: '\n' :: (b ++ '\n' :: '\n' :: others) := by simp
    rw [List.flatMap_cons, shape, collapse_append_break, collapse_append_break, ih,
      joinBlocks_joinBlocks]
    exact joinBlocks_joinBlocks (collapse b) (blocks.map collapse)

end DocIndex.Markup
