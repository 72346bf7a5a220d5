import DocIndex.Proofs.Markup.Stretch
import DocIndex.Proofs.Text.Lines

/-!
# Code in fences

A reader takes the code of a fenced block from the lines below the opening one, up to the first line
of three backticks (`readFence`). That gives the code back exactly if no line of the code is such a
line itself (`readFence_fence_iff`): a fence is not made longer for code that holds one.
-/

namespace DocIndex.Markup

open Text

variable {language code text : List Char}

/-- The line that closes a fence. -/
def closingLine : List Char :=
  "\x60\x60\x60".toList

/-- What a reader takes from the fenced block at the start of a text: the lines below the first one,
up to the next line that closes a fence. -/
def readFence (s : List Char) : List Char :=
  joinLines (((s.splitOn '\n').drop 1).takeWhile (· ≠ closingLine))

theorem takeWhile_ne_append {front : List (List Char)} {line : List Char} (h : line ∉ front)
    (rest : List (List Char)) : (front ++ line :: rest).takeWhile (· ≠ line) = front := by
  have apart : ∀ l ∈ front, decide (l ≠ line) = true := by
    intro l hl
    simpa using ne_of_mem_of_not_mem hl h
  rw [List.takeWhile_append_of_pos apart, List.takeWhile_cons_of_neg (by simp), List.append_nil]

/-- The lines of a text in front of a certain line are all its lines exactly if it has no such
line. -/
theorem joinLines_takeWhile_iff {line : List Char} (filled : line ≠ []) (rest : List (List Char)) :
    joinLines ((code.splitOn '\n' ++ line :: rest).takeWhile (· ≠ line)) = code ↔
      line ∉ code.splitOn '\n' := by
  constructor
  · intro same mem
    obtain ⟨front, back, split, fresh⟩ := List.eq_append_cons_of_mem mem
    rw [split, List.append_assoc, List.cons_append, takeWhile_ne_append fresh] at same
    by_cases none : front = []
    · rw [none, joinLines, List.intercalate_nil] at same
      rw [← same, List.splitOn_nil, none] at split
      exact filled (List.cons.inj split).1.symm
    · -- The lines in front are all the lines of the code, so that nothing is left behind them.
      have apart : ∀ l ∈ front, '\n' ∉ l := fun l hl =>
        newline_notMem_of_mem_splitOn (split ▸ List.mem_append_left _ hl)
      rw [← same, joinLines, List.splitOn_intercalate '\n' apart none] at split
      exact List.cons_ne_nil line back (List.self_eq_append_right.1 split)
  · intro fresh
    rw [takeWhile_ne_append fresh, joinLines_splitOn]

/-- A fenced block is read back as its code exactly if no line of the code closes a fence. -/
theorem readFence_fence_iff (tag : '\n' ∉ language) (rest : List Char) :
    readFence (fence language code ++ '\n' :: rest) = code ↔ closingLine ∉ code.splitOn '\n' := by
  have shape : fence language code ++ '\n' :: rest =
      (closingLine ++ language) ++ '\n' :: (code ++ '\n' :: (closingLine ++ '\n' :: rest)) := by
    simp [fence, closingLine]
  have opening : (closingLine ++ language).splitOn '\n' = [closingLine ++ language] :=
    List.splitOn_eq_singleton (by simpa [closingLine] using tag)
  have closing : closingLine.splitOn '\n' = [closingLine] := by decide
  rw [readFence, shape, List.splitOn_append_cons_self, List.splitOn_append_cons_self,
    List.splitOn_append_cons_self, opening, closing]
  exact joinLines_takeWhile_iff (by decide) _

/-! ## Texts with fences -/

/-- Whether a text shows code in a fence, with an empty line above and the end of a line below. -/
def Fenced (language code text : List Char) : Prop :=
  ∃ front back, text = front ++ '\n' :: '\n' :: (fence language code ++ '\n' :: back)

theorem Fenced.append (h : Fenced language code text) (front back : List Char) :
    Fenced language code (front ++ (text ++ back)) := by
  obtain ⟨above, below, rfl⟩ := h
  exact ⟨front ++ above, below ++ back, by simp⟩

/-- Documentation that stands on lines of its own shows the code of each `pre` block in a fence. -/
theorem fenced_proseText (language : List Char) (before after : List Stretch)
    {html inner : List Char} (found : Rewrites preformatted.scan html [.found inner])
    (rest : List Char) : Fenced language (codeText inner) ('\n' :: '\n' :: (proseText language
      ((before ++ .block html inner found :: after).flatMap Stretch.html) ++ '\n' :: rest)) := by
  obtain ⟨front, back, shown, above, below⟩ :=
    exists_proseText_block_eq language before after found
  obtain ⟨above, hfront⟩ : ∃ above, '\n' :: '\n' :: front = above ++ ['\n', '\n'] := by
    rcases above with rfl | ⟨above, rfl⟩
    · exact ⟨[], rfl⟩
    · exact ⟨'\n' :: '\n' :: above, rfl⟩
  obtain ⟨below, hback⟩ : ∃ below, back ++ '\n' :: rest = '\n' :: below := by
    rcases below with rfl | ⟨below, rfl⟩
    · exact ⟨rest, rfl⟩
    · exact ⟨'\n' :: (below ++ '\n' :: rest), by simp⟩
  refine ⟨above, below, ?_⟩
  rw [shown, ← hback]
  calc '\n' :: '\n' :: (front ++ (fence language (codeText inner) ++ back) ++ '\n' :: rest)
      = ('\n' :: '\n' :: front) ++ (fence language (codeText inner) ++ (back ++ '\n' :: rest)) := by
        simp
    _ = above ++ '\n' :: '\n' :: (fence language (codeText inner) ++ (back ++ '\n' :: rest)) := by
        rw [hfront]
        simp

end DocIndex.Markup
