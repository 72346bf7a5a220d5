import Mathlib.Data.List.Chain
import DocIndex.Proofs.Text.Words
import DocIndex.Text.Lines

/-!
# Lines of a text

The lines of a text are what stands between its line feeds, but for a carriage return in front of a
line feed and an empty piece behind the last one (`exists_lines_eq`). Neither shows where white
space is trimmed from the end of each line (`stripWhile_map_trimEnd_lines`).
-/

namespace DocIndex.Text

variable {s t : List Char}

theorem joinLines_splitOn (s : List Char) : joinLines (s.splitOn '\n') = s :=
  List.intercalate_splitOn '\n'

/-- The lines of a text in terms of what stands between its line feeds. -/
theorem exists_lines_eq (s : List Char) : ∃ front last, s.splitOn '\n' = front ++ [last] ∧
    lines s = front.map dropReturn ++ if last = [] then [] else [last] := by
  obtain ⟨front, last, split⟩ :=
    (List.eq_nil_or_concat' (s.splitOn '\n')).resolve_left (List.splitOn_ne_nil '\n' s)
  refine ⟨front, last, split, ?_⟩
  rw [lines, split, List.dropLast_concat, List.getLast?_concat]
  cases last with
  | nil => simp
  | cons c r => rfl

theorem mem_of_mem_dropReturn {line : List Char} {c : Char} (hc : c ∈ dropReturn line) :
    c ∈ line := by
  rw [dropReturn] at hc
  split_ifs at hc
  · exact (List.dropLast_subset line) hc
  · exact hc

theorem newline_notMem_of_mem_splitOn {line : List Char} (h : line ∈ s.splitOn '\n') :
    '\n' ∉ line :=
  fun hc => absurd (not_of_mem_splitOnP line h '\n' hc) (by decide)

theorem newline_notMem_of_mem_lines {line : List Char} (h : line ∈ lines s) : '\n' ∉ line := by
  obtain ⟨front, last, split, same⟩ := exists_lines_eq s
  have apart {piece : List Char} (mem : piece ∈ front ++ [last]) : '\n' ∉ piece :=
    newline_notMem_of_mem_splitOn (split ▸ mem)
  rw [same, List.mem_append] at h
  rcases h with h | h
  · obtain ⟨piece, mem, rfl⟩ := List.mem_map.1 h
    exact fun hc => apart (List.mem_append_left _ mem) (mem_of_mem_dropReturn hc)
  · split_ifs at h
    · cases h
    · exact apart (List.mem_append_right _ h)

theorem trimEnd_dropReturn (line : List Char) : trimEnd (dropReturn line) = trimEnd line := by
  rw [dropReturn]
  split_ifs with ends
  · rw [← List.dropLast_append_getLast? _ ends, List.dropLast_concat]
    exact (dropEndWhile_concat (by decide) _).symm
  · rfl

/-- Where lines are trimmed and empty ones at the end are dropped, all line ends are alike. -/
theorem stripWhile_map_trimEnd_lines (s : List Char) :
    stripWhile List.isEmpty ((lines s).map trimEnd) =
      stripWhile List.isEmpty ((s.splitOn '\n').map trimEnd) := by
  obtain ⟨front, last, split, same⟩ := exists_lines_eq s
  have trimmed : (front.map dropReturn).map trimEnd = front.map trimEnd := by
    rw [List.map_map]
    exact List.map_congr_left fun line _ => trimEnd_dropReturn line
  rw [same, split, List.map_append, List.map_append, trimmed]
  have nothing : List.isEmpty (trimEnd []) = true := rfl
  split_ifs with empty
  · rw [empty, List.map_singleton, stripWhile_concat nothing, List.map_nil, List.append_nil]
  · rfl

/-! ## Texts without white space at the end -/

/-- The last line of a text is not empty, and its end is the end of the text. -/
theorem exists_lines_concat (firm : Firm s) (ne : s ≠ []) : ∃ front last,
    s.splitOn '\n' = front ++ [last] ∧ lines s = front.map dropReturn ++ [last] ∧
      last ≠ [] ∧ Firm last := by
  obtain ⟨front, last, split, same⟩ := exists_lines_eq s
  have whole : s = (if front = [] then [] else ['\n'].intercalate front ++ ['\n']) ++ last := by
    rw [← intercalate_concat, ← split]
    exact (joinLines_splitOn s).symm
  have filled : last ≠ [] := by
    rintro rfl
    split_ifs at whole with single
    · exact ne whole
    · have blank : isBlank '\n' = false := firm '\n' (by simp [whole])
      cases blank
  refine ⟨front, last, split, by rw [same, if_neg filled], filled, fun c hc => ?_⟩
  exact firm c (by rwa [whole, List.getLast?_append_of_ne_nil _ filled])

/-- A line with spaces in front of it, unless it is empty. -/
def padded (width : Nat) (line : List Char) : List Char :=
  if line.isEmpty then [] else List.replicate width ' ' ++ line

theorem indent_eq (width : Nat) (s : List Char) :
    indent width s = joinLines ((lines s).map (padded width)) :=
  rfl

theorem firm_indent (width : Nat) (firm : Firm s) (ne : s ≠ []) :
    indent width s ≠ [] ∧ Firm (indent width s) := by
  obtain ⟨front, last, -, same, filled, firm'⟩ := exists_lines_concat firm ne
  have shown : padded width last = List.replicate width ' ' ++ last := by
    rw [padded, if_neg (by simpa using filled)]
  have filled' : padded width last ≠ [] := by simp [shown, filled]
  rw [indent_eq, same, List.map_append, List.map_singleton, joinLines, intercalate_concat]
  refine ⟨by simp [filled'], Firm.append ?_ filled' _⟩
  rw [shown]
  exact firm'.append filled _

theorem dropReturn_of_firm (firm : Firm s) : dropReturn s = s := by
  rw [dropReturn, if_neg]
  intro ends
  exact absurd (firm '\r' ends) (by decide)

theorem lines_of_firm (firm : Firm s) (ne : s ≠ []) :
    lines s = (s.splitOn '\n').map dropReturn := by
  obtain ⟨front, last, split, same, -, firm'⟩ := exists_lines_concat firm ne
  rw [same, split, List.map_append, List.map_singleton, dropReturn_of_firm firm']

theorem drop_padded (width : Nat) (line : List Char) : (padded width line).drop width = line := by
  rw [padded]
  split_ifs with empty
  · rw [List.isEmpty_iff.1 empty, List.drop_nil]
  · exact List.drop_left' (List.length_replicate ..)

/-! ## Texts put together -/

/-- Where two texts meet, the last line of one goes on with the first line of the other. -/
theorem splitOn_append {front back : List (List Char)} {last first : List Char}
    (hs : s.splitOn '\n' = front ++ [last]) (ht : t.splitOn '\n' = first :: back) :
    (s ++ t).splitOn '\n' = front ++ (last ++ first) :: back := by
  have whole : s ++ t = ['\n'].intercalate (front ++ (last ++ first) :: back) := by
    conv_lhs => rw [← joinLines_splitOn s, ← joinLines_splitOn t, hs, ht, joinLines, joinLines,
      intercalate_concat]
    have rest : last ++ ['\n'].intercalate (first :: back) =
        ['\n'].intercalate ((last ++ first) :: back) := by
      cases back with
      | nil => simp
      | cons line back => simp [List.intercalate_cons_cons]
    split_ifs with single
    · rw [single, List.nil_append, List.nil_append, rest]
    · rw [intercalate_append single (List.cons_ne_nil _ _), List.append_assoc, List.append_assoc,
        rest]
  have apart {line : List Char} (h : line ∈ s.splitOn '\n' ∨ line ∈ t.splitOn '\n') :
      '\n' ∉ line :=
    h.elim newline_notMem_of_mem_splitOn newline_notMem_of_mem_splitOn
  rw [hs, ht] at apart
  rw [whole]
  refine List.splitOn_intercalate '\n' (fun line hline => ?_) (by simp)
  rw [List.mem_append, List.mem_cons] at hline
  rcases hline with hline | rfl | hline
  · exact apart (.inl (List.mem_append_left _ hline))
  · rw [List.mem_append, not_or]
    exact ⟨apart (.inl (by simp)), apart (.inr (by simp))⟩
  · exact apart (.inr (List.mem_cons_of_mem _ hline))

theorem splitOn_joinLines {l : List (List Char)} (ne : l ≠ []) :
    (joinLines l).splitOn '\n' = l.flatMap (·.splitOn '\n') := by
  induction l with
  | nil => exact absurd rfl ne
  | cons s l ih =>
    cases l with
    | nil => simp [joinLines]
    | cons t l =>
      have shape : joinLines (s :: t :: l) = s ++ '\n' :: joinLines (t :: l) := by
        simp [joinLines, List.intercalate_cons_cons]
      rw [shape, List.splitOn_append_cons_self, ih (List.cons_ne_nil t l)]
      rfl

theorem isChain_joinLines_iff {R : Char → Char → Prop} (before : ∀ c, R c '\n')
    (behind : ∀ c, R '\n' c) (l : List (List Char)) :
    (joinLines l).IsChain R ↔ ∀ line ∈ l, line.IsChain R := by
  induction l with
  | nil => simp [joinLines]
  | cons line l ih =>
    by_cases single : l = []
    · simp [single, joinLines]
    · rw [joinLines, intercalate_cons_of_ne_nil single, List.isChain_append, List.singleton_append,
        List.isChain_cons, ← joinLines, ih, List.forall_mem_cons]
      simp [before, behind]

theorem forall_mem_joinLines_iff {p : Char → Prop} (newline : p '\n') (l : List (List Char)) :
    (∀ c ∈ joinLines l, p c) ↔ ∀ line ∈ l, ∀ c ∈ line, p c := by
  induction l with
  | nil => simp [joinLines]
  | cons line l ih =>
    by_cases single : l = []
    · simp [single, joinLines]
    · rw [joinLines, intercalate_cons_of_ne_nil single, ← joinLines, List.forall_mem_append,
        List.singleton_append, List.forall_mem_cons, ih, List.forall_mem_cons]
      simp [newline]

/-! ## Carriage returns -/

/-- Whether no line of the text ends with a carriage return. -/
def Returnless (s : List Char) : Prop :=
  ∀ line ∈ s.splitOn '\n', line.getLast? ≠ some '\r'

instance (s : List Char) : Decidable (Returnless s) :=
  inferInstanceAs (Decidable (∀ line ∈ s.splitOn '\n', line.getLast? ≠ some '\r'))

theorem mem_of_mem_splitOn {line : List Char} {c : Char} (h : line ∈ s.splitOn '\n')
    (hc : c ∈ line) : c ∈ s := by
  induction s generalizing line with
  | nil =>
    rw [List.splitOn_nil, List.mem_singleton] at h
    rwa [← h]
  | cons a s ih =>
    obtain ⟨first, rest, split⟩ := List.exists_cons_of_ne_nil (List.splitOn_ne_nil '\n' s)
    rw [List.splitOn_cons_eq_if_modifyHead, split] at h
    rw [split] at ih
    split_ifs at h
    · rcases List.mem_cons.1 h with rfl | h
      · cases hc
      · exact List.mem_cons_of_mem a (ih h hc)
    · rw [List.modifyHead_cons, List.mem_cons] at h
      rcases h with rfl | h
      · exact List.mem_cons.2 ((List.mem_cons.1 hc).imp_right (ih List.mem_cons_self))
      · exact List.mem_cons_of_mem a (ih (List.mem_cons_of_mem first h) hc)

theorem returnless_of_notMem (h : '\r' ∉ s) : Returnless s :=
  fun _ hline ends => h (mem_of_mem_splitOn hline (List.mem_of_mem_getLast? ends))

/-- The lines of two texts put together are those of both but where they meet. -/
theorem exists_splitOn_append (s t : List Char) : ∃ front last first back,
    s.splitOn '\n' = front ++ [last] ∧ t.splitOn '\n' = first :: back ∧
      (s ++ t).splitOn '\n' = front ++ (last ++ first) :: back := by
  obtain ⟨front, last, hs⟩ :=
    (List.eq_nil_or_concat' (s.splitOn '\n')).resolve_left (List.splitOn_ne_nil '\n' s)
  obtain ⟨first, back, ht⟩ := List.exists_cons_of_ne_nil (List.splitOn_ne_nil '\n' t)
  exact ⟨front, last, first, back, hs, ht, splitOn_append hs ht⟩

namespace Returnless

theorem append (hs : Returnless s) (ht : Returnless t) : Returnless (s ++ t) := by
  obtain ⟨front, last, first, back, split, split', whole⟩ := exists_splitOn_append s t
  rw [Returnless, split, List.forall_mem_append, List.forall_mem_singleton] at hs
  rw [Returnless, split', List.forall_mem_cons] at ht
  rw [Returnless, whole, List.forall_mem_append, List.forall_mem_cons]
  refine ⟨hs.1, ?_, ht.2⟩
  by_cases none : first = []
  · rw [none, List.append_nil]
    exact hs.2
  · rw [List.getLast?_append_of_ne_nil _ none]
    exact ht.1

theorem flatMap {α : Type} {l : List α} {f : α → List Char} (h : ∀ a ∈ l, Returnless (f a)) :
    Returnless (l.flatMap f) := by
  induction l with
  | nil => exact returnless_of_notMem List.not_mem_nil
  | cons a l ih =>
    rw [List.forall_mem_cons] at h
    rw [List.flatMap_cons]
    exact h.1.append (ih h.2)

theorem right (h : Returnless (s ++ t)) : Returnless t := by
  obtain ⟨front, last, first, back, -, split', whole⟩ := exists_splitOn_append s t
  rw [Returnless, whole, List.forall_mem_append, List.forall_mem_cons] at h
  rw [Returnless, split', List.forall_mem_cons]
  refine ⟨fun ends => h.2.1 ?_, h.2.2⟩
  rw [List.getLast?_append, ends, Option.some_or]

theorem left (h : Returnless (s ++ t)) (firm : Firm s) : Returnless s := by
  obtain ⟨front, last, first, back, split, -, whole⟩ := exists_splitOn_append s t
  rw [Returnless, whole, List.forall_mem_append] at h
  rw [Returnless, split, List.forall_mem_append, List.forall_mem_singleton]
  refine ⟨h.1, fun ends => ?_⟩
  have same : s.getLast? = some '\r' := by
    rw [← joinLines_splitOn s, split, joinLines, intercalate_concat, List.getLast?_append, ends,
      Option.some_or]
  exact absurd (firm '\r' same) (by decide)

theorem trim (h : Returnless s) : Returnless (trim s) := by
  obtain ⟨front, tail, whole, -⟩ := exists_eq_append_trim s
  rw [whole] at h
  exact h.right.left (firm_trim s)

end Returnless

theorem dropReturn_eq_self_iff {line : List Char} :
    dropReturn line = line ↔ line.getLast? ≠ some '\r' := by
  constructor
  · intro same ends
    have length := congrArg List.length same
    have filled := List.length_pos_of_mem (List.mem_of_mem_getLast? ends)
    rw [dropReturn, if_pos ends, List.length_dropLast] at length
    omega
  · exact fun apart => if_neg apart

/-- The lines of the text are those that stand between its line feeds exactly if none of them ends
with a carriage return. -/
theorem joinLines_map_dropReturn_eq_self_iff :
    joinLines ((s.splitOn '\n').map dropReturn) = s ↔ Returnless s := by
  have apart : ∀ line ∈ (s.splitOn '\n').map dropReturn, '\n' ∉ line :=
    List.forall_mem_map.2 fun line hline mem =>
      newline_notMem_of_mem_splitOn hline (mem_of_mem_dropReturn mem)
  have ne : (s.splitOn '\n').map dropReturn ≠ [] := by simp [List.splitOn_ne_nil]
  have same_lines : joinLines ((s.splitOn '\n').map dropReturn) = s ↔
      (s.splitOn '\n').map dropReturn = (s.splitOn '\n').map id := by
    rw [List.map_id]
    constructor
    · intro same
      have split := List.splitOn_intercalate '\n' apart ne
      rw [← joinLines, same] at split
      exact split.symm
    · intro same
      rw [same, joinLines_splitOn]
  rw [same_lines, List.map_inj_left, Returnless]
  exact forall₂_congr fun line _ => dropReturn_eq_self_iff

end DocIndex.Text
