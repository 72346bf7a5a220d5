import Mathlib.Data.List.Basic
import DocIndex.Text.Blank

/-!
# White space at the end

A text is `Firm` if it does not end in white space, so that nothing is trimmed from its end
(`trimEnd_eq_self`). Words hold no white space, and what consists of words is firm (`firm_oneLine`).
-/

namespace DocIndex.Text

variable {α : Type} {p : α → Bool} {s t : List Char}

/-- Whether the text does not end in white space. -/
def Firm (s : List Char) : Prop :=
  ∀ c ∈ s.getLast?, isBlank c = false

theorem Firm.append (firm : Firm t) (ne : t ≠ []) (front : List Char) : Firm (front ++ t) := by
  intro c hc
  rw [List.getLast?_append_of_ne_nil front ne] at hc
  exact firm c hc

theorem firm_of_forall (h : ∀ c ∈ s, isBlank c = false) : Firm s :=
  fun c hc => h c (List.mem_of_mem_getLast? hc)

theorem dropEndWhile_eq_self {l : List α} (stop : ∀ a ∈ l.getLast?, p a = false) :
    dropEndWhile p l = l := by
  rw [dropEndWhile]
  cases back : l.reverse with
  | nil => simpa using back.symm
  | cons a r =>
    have last : l.getLast? = some a := by rw [← List.head?_reverse, back, List.head?_cons]
    rw [List.dropWhile_cons_of_neg (by simp [stop a last]), ← back, List.reverse_reverse]

theorem trimEnd_eq_self (firm : Firm s) : trimEnd s = s :=
  dropEndWhile_eq_self firm

theorem not_of_mem_splitOnP {l : List α} : ∀ piece ∈ l.splitOnP p, ∀ c ∈ piece, p c = false := by
  induction l with
  | nil => simp
  | cons a l ih =>
    obtain ⟨first, rest, hl⟩ := List.exists_cons_of_ne_nil (List.splitOnP_ne_nil p l)
    rw [hl, List.forall_mem_cons] at ih
    rw [List.splitOnP_cons_eq_if_modifyHead, hl]
    split_ifs with cut
    · simpa using ih
    · simp only [List.modifyHead_cons, List.forall_mem_cons]
      exact ⟨⟨by simpa using cut, ih.1⟩, ih.2⟩

theorem words_spec {w : List Char} (h : w ∈ words s) : w ≠ [] ∧ ∀ c ∈ w, isBlank c = false := by
  obtain ⟨piece, filled⟩ := List.mem_filter.1 h
  exact ⟨by simpa using filled, not_of_mem_splitOnP w piece⟩

theorem intercalate_ne_nil {w : List Char} (hw : w ≠ []) (sep : List Char) (l : List (List Char)) :
    sep.intercalate (w :: l) ≠ [] := by
  cases l with
  | nil => simpa using hw
  | cons v l => simp [List.intercalate_cons_cons, hw]

theorem firm_intercalate (sep : List Char) {l : List (List Char)} (hl : ∀ w ∈ l, w ≠ [] ∧ Firm w) :
    Firm (sep.intercalate l) := by
  induction l with
  | nil => exact firm_of_forall (by simp)
  | cons w l ih =>
    rw [List.forall_mem_cons] at hl
    cases l with
    | nil => simpa using hl.1.2
    | cons v l =>
      have filled : v ≠ [] := (hl.2 v List.mem_cons_self).1
      rw [List.intercalate_cons_cons]
      exact (ih hl.2).append (intercalate_ne_nil filled sep l) _

/-- What is written in words has no white space at its end. -/
theorem firm_oneLine (s : List Char) : Firm (oneLine s) :=
  firm_intercalate _ fun _ hw => ⟨(words_spec hw).1, firm_of_forall (words_spec hw).2⟩

end DocIndex.Text
