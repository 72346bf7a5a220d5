import DocIndex.Markup.Entity
import DocIndex.Proofs.Markup.Pattern
import DocIndex.Proofs.Text.Words

/-!
# Plain text in HTML

`escape` writes plain text in HTML, with entities for the three characters of markup. Decoding it
gives the text back, whatever stands behind it (`rewrites_decode_escape`).
-/

namespace DocIndex.Markup

open Text

variable {c : Char} {s t : List Char}

/-- A character of plain text in HTML. -/
def escapeChar (c : Char) : List Char :=
  if c = '&' then "&amp;".toList
  else if c = '<' then "&lt;".toList
  else if c = '>' then "&gt;".toList
  else [c]

/-- Plain text in HTML. -/
def escape (s : List Char) : List Char :=
  s.flatMap escapeChar

theorem escape_append (s t : List Char) : escape (s ++ t) = escape s ++ escape t :=
  List.flatMap_append

theorem lt_notMem_escape (s : List Char) : '<' ∉ escape s := by
  rw [escape, List.mem_flatMap]
  rintro ⟨c, -, hc⟩
  rw [escapeChar] at hc
  split_ifs at hc
  · exact absurd hc (by decide)
  · exact absurd hc (by decide)
  · exact absurd hc (by decide)
  · next other _ => exact other (List.mem_singleton.1 hc).symm

theorem escapeChar_eq_or (c : Char) :
    escapeChar c = [c] ∨ ∃ name, escapeChar c = '&' :: (name ++ [';']) := by
  rw [escapeChar]
  split_ifs
  · exact .inr ⟨"amp".toList, rfl⟩
  · exact .inr ⟨"lt".toList, rfl⟩
  · exact .inr ⟨"gt".toList, rfl⟩
  · exact .inl rfl

/-- White space at the ends of a text in HTML is that of the text. -/
theorem framed_escape (framed : Framed s) : Framed (escape s) := by
  obtain ⟨ne, head, firm⟩ := framed
  refine ⟨?_, ?_, ?_⟩
  · obtain ⟨c, r, rfl⟩ := List.exists_cons_of_ne_nil ne
    rw [escape, List.flatMap_cons]
    rcases escapeChar_eq_or c with same | ⟨name, entity⟩
    · simp [same]
    · simp [entity]
  · obtain ⟨c, r, rfl⟩ := List.exists_cons_of_ne_nil ne
    rw [escape, List.flatMap_cons]
    rcases escapeChar_eq_or c with same | ⟨name, entity⟩
    · simpa [same] using head
    · simp only [entity, List.cons_append, List.head?_cons, Option.mem_some_iff, forall_eq']
      decide
  · obtain ⟨front, c, rfl⟩ := (List.eq_nil_or_concat' s).resolve_left ne
    rw [escape_append, escape, escape, List.flatMap_singleton]
    intro d hd
    rcases escapeChar_eq_or c with same | ⟨name, entity⟩
    · rw [same, List.getLast?_concat] at hd
      exact firm d (by rwa [List.getLast?_concat])
    · rw [entity, ← List.cons_append, ← List.append_assoc, List.getLast?_concat] at hd
      cases hd
      decide

/-! ## Decoding -/

@[simp]
theorem decode_nil : decode [] = [] :=
  Pattern.replace_nil

theorem entity_keeps (plain : '&' ∉ s) : entity.Keeps s := by
  refine Pattern.keeps_of_forall fun c hc rest => ?_
  unfold entity
  dsimp only
  split
  · next same =>
    cases same
    exact absurd hc plain
  · rfl

theorem rewrites_decode_of_plain (plain : '&' ∉ s) : Rewrites decode s s :=
  (entity_keeps plain).replace

theorem rewrites_decode_escapeChar (c : Char) : Rewrites decode (escapeChar c) [c] := by
  rw [escapeChar]
  split_ifs with amp lt gt
  · subst amp
    exact Pattern.rewrites_replace fun rest => rfl
  · subst lt
    exact Pattern.rewrites_replace fun rest => rfl
  · subst gt
    exact Pattern.rewrites_replace fun rest => rfl
  · exact rewrites_decode_of_plain (by simpa using Ne.symm amp)

/-- Decoding gives plain text back. -/
theorem rewrites_decode_escape (s : List Char) : Rewrites decode (escape s) s := by
  have chars := Rewrites.flatMap (l := s) fun c _ => rewrites_decode_escapeChar c
  rwa [List.flatMap_singleton'] at chars

end DocIndex.Markup
