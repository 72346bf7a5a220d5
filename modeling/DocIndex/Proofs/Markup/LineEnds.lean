import DocIndex.Proofs.Markup.Code
import DocIndex.Proofs.Markup.Collapsed
import DocIndex.Proofs.Markup.Placeholder

/-!
# Line ends in Markdown

Code is trimmed line by line, and where white space is collapsed no carriage return is left. So no
line of prose ends with one, unless a line of the language that its code is tagged with does
(`returnless_prose`).
-/

namespace DocIndex.Markup

open Text Collapsing

variable {c : Char} {s : List Char}

theorem returnless_codeText (html : List Char) : Returnless (codeText html) := by
  by_cases none : codeLines html = []
  · rw [codeText_eq, none]
    exact returnless_of_notMem List.not_mem_nil
  · have split : (codeText html).splitOn '\n' = codeLines html :=
      List.splitOn_intercalate '\n' (fun line hline => (codeLines_spec html line hline).2) none
    rw [Returnless, split]
    intro line hline ends
    exact absurd ((codeLines_spec html line hline).1 '\r' ends) (by decide)

theorem return_notMem_collapse (s : List Char) : '\r' ∉ collapse s :=
  fun hc => absurd ((collapsed_collapse s).blank '\r' hc rfl) (by decide)

theorem plain_mem_scan (h : .plain c ∈ held.scan s) : c ∈ s := by
  induction s using Pattern.scan.induct held with
  | case1 => simp at h
  | case2 d r n rest read ih =>
    rw [Pattern.scan_of_some read, List.mem_cons] at h
    obtain ⟨digits, whole, -⟩ := held_read?_iff.1 read
    have later := ih (h.resolve_left (by simp))
    simp [whole, later]
  | case3 d r none ih =>
    rw [Pattern.scan_of_none none, List.mem_cons] at h
    rcases h with h | h
    · cases h
      exact List.mem_cons_self
    · exact List.mem_cons_of_mem d (ih h)

theorem returnless_fence {language code : List Char} (hl : Returnless language)
    (hc : Returnless code) : Returnless (fence language code) := by
  have open_fence : Returnless "\x60\x60\x60".toList := returnless_of_notMem (by decide)
  have close_fence : Returnless "\n\x60\x60\x60".toList := returnless_of_notMem (by decide)
  have newline : Returnless ['\n'] := returnless_of_notMem (by decide)
  exact ((open_fence.append hl).append (newline.append hc)).append close_fence

theorem returnless_releaseBlocks {language : List Char} {blocks : List (List Char)}
    (hl : Returnless language) (hb : ∀ block ∈ blocks, Returnless block) (absent : '\r' ∉ s) :
    Returnless (releaseBlocks language blocks s) := by
  refine Returnless.flatMap fun piece mem => ?_
  cases piece with
  | plain c =>
    refine returnless_of_notMem fun same => absent ?_
    rw [List.mem_singleton.1 same]
    exact plain_mem_scan mem
  | found n =>
    show Returnless ((blocks[n]?.map (fence language)).getD [])
    cases hn : blocks[n]? with
    | none => exact returnless_of_notMem List.not_mem_nil
    | some block => exact returnless_fence hl (hb block (List.mem_of_getElem? hn))

/-- No line of prose ends with a carriage return if no line of the language does. -/
theorem returnless_prose {language : List Char} (returnless : Returnless language)
    (html : List Char) : Returnless (proseText language html) := by
  refine Returnless.trim (returnless_releaseBlocks returnless ?_ (return_notMem_collapse _))
  exact List.forall_mem_map.2 fun inner _ => returnless_codeText inner

end DocIndex.Markup
