import DocIndex.Proofs.Markup.Placeholder

/-!
# Documentation stretch by stretch

Documentation is cut into stretches: `pre` blocks, and HTML without any that is converted whatever
stands next to it. While the rest is converted a placeholder stands for each block
(`convert_stretches`), on a line of its own between empty ones. So the code of each block is shown
in a fence that starts and ends a paragraph, whatever stands around it
(`exists_proseText_block_eq`).
-/

namespace DocIndex.Markup

open Text

variable {language : List Char} {blocks : List (List Char)}

/-- A part of documentation: HTML without `pre` blocks, or a `pre` block with what is in it. -/
inductive Stretch where
  | markup (html shown : List Char) (converts : Converts html shown)
  | block (html inner : List Char) (found : Rewrites preformatted.scan html [.found inner])

namespace Stretch

/-- The stretch in HTML. -/
def html : Stretch → List Char
  | markup html _ _ => html
  | block html _ _ => html

/-- The code of a `pre` block. -/
def code? : Stretch → Option (List Char)
  | markup _ _ _ => none
  | block _ inner _ => some (codeText inner)

/-- What the search for `pre` blocks finds in a stretch. -/
def pieces : Stretch → List (Piece (List Char))
  | markup html _ _ => html.map .plain
  | block _ inner _ => [.found inner]

/-- What stretches are converted to, with the next placeholder for each `pre` block. -/
def shown (n : Nat) : List Stretch → List Char
  | [] => []
  | markup _ text _ :: rest => text ++ shown n rest
  | block _ _ _ :: rest =>
    ['\n', '\n'] ++ (placeholder n ++ ['\n', '\n']) ++ shown (n + 1) rest

theorem shown_append (n : Nat) (l m : List Stretch) :
    shown n (l ++ m) = shown n l ++ shown (n + (l.filterMap code?).length) m := by
  induction l generalizing n with
  | nil => rfl
  | cons part l ih =>
    cases part with
    | markup html text converts =>
      rw [List.cons_append, shown, shown, ih, List.append_assoc]
      rfl
    | block html inner found =>
      have count : ((block html inner found :: l).filterMap code?).length =
          1 + (l.filterMap code?).length :=
        Nat.add_comm _ 1
      rw [List.cons_append, shown, shown, ih, count, Nat.add_assoc]
      simp only [List.append_assoc]

end Stretch

open Stretch

theorem scan_stretches (l : List Stretch) :
    preformatted.scan (l.flatMap html) = l.flatMap pieces := by
  refine (Rewrites.flatMap fun part _ => ?_).eq Pattern.scan_nil
  cases part with
  | markup html text converts => exact converts.kept
  | block html inner found => exact found

theorem codes_stretches (l : List Stretch) :
    ((l.flatMap pieces).filterMap Piece.found?).map codeText = l.filterMap code? := by
  induction l with
  | nil => rfl
  | cons part l ih =>
    rw [List.flatMap_cons, List.filterMap_append, List.map_append, ih]
    cases part with
    | markup html text converts =>
      rw [pieces, Pattern.filterMap_found?_map_plain]
      rfl
    | block html inner found => rfl

theorem holdBlocks_plain (n : Nat) (s : List Char) (rest : List (Piece (List Char))) :
    holdBlocks n (s.map .plain ++ rest) = s ++ holdBlocks n rest := by
  induction s with
  | nil => rfl
  | cons c s ih => rw [List.map_cons, List.cons_append, holdBlocks, ih, List.cons_append]

/-- The stretches are converted one by one. -/
theorem convert_stretches (n : Nat) (l : List Stretch) :
    convert (holdBlocks n (l.flatMap pieces)) = shown n l := by
  induction l generalizing n with
  | nil =>
    rw [List.flatMap_nil, holdBlocks, convert_nil]
    rfl
  | cons part l ih =>
    rw [List.flatMap_cons]
    cases part with
    | markup html text converts =>
      rw [pieces, holdBlocks_plain, converts.converted, ih, shown]
    | block html inner found =>
      have gap : Converts ['\n', '\n'] ['\n', '\n'] :=
        .text (by decide) (rewrites_decode_of_plain (by decide))
      have held := gap.append ((converts_placeholder n).append gap)
      have shape : holdBlocks n (pieces (block html inner found) ++ l.flatMap pieces) =
          ['\n', '\n'] ++ (placeholder n ++ ['\n', '\n']) ++
            holdBlocks (n + 1) (l.flatMap pieces) := by
        simp [pieces, holdBlocks]
      rw [shape, held.converted, ih, shown]

theorem proseText_stretches (language : List Char) (l : List Stretch) :
    proseText language (l.flatMap html) =
      trim (releaseBlocks language (l.filterMap code?) (collapse (shown 0 l))) := by
  rw [proseText, scan_stretches, codes_stretches, ← convert, convert_stretches]

theorem framed_fence (language code : List Char) : Framed (fence language code) := by
  have tick : Framed ['\x60'] := framed_of_forall (by simp) (List.forall_mem_singleton.2 rfl)
  have shape : fence language code =
      ['\x60'] ++ ("\x60\x60".toList ++ language ++ '\n' :: code ++ "\n\x60\x60".toList ++
        ['\x60']) := by
    simp [fence]
  rw [shape]
  exact tick.append tick _

/-- A placeholder between empty lines is released as a fence between empty lines. -/
theorem exists_trim_releaseBlocks_eq {k : Nat} {code : List Char} (here : blocks[k]? = some code)
    (above below : List Char) :
    ∃ front back, trim (releaseBlocks language blocks (joinBlocks [above, placeholder k, below])) =
        front ++ (fence language code ++ back) ∧
      (front = [] ∨ ['\n', '\n'] <:+ front) ∧ (back = [] ∨ ['\n', '\n'] <+: back) := by
  have kept : ([above] ++ placeholder k :: [below]).filter (fun b => !b.isEmpty) =
      [above].filter (fun b => !b.isEmpty) ++
        placeholder k :: [below].filter (fun b => !b.isEmpty) := by
    rw [List.filter_append, List.filter_cons_of_pos (a := placeholder k) rfl]
  have released : releaseBlocks language blocks (placeholder k) = fence language code := by
    rw [releaseBlocks_placeholder, here]
    rfl
  have blank : ∀ c ∈ ['\n', '\n'], isBlank c = true :=
    List.forall_mem_cons.2 ⟨rfl, List.forall_mem_singleton.2 rfl⟩
  rw [← List.singleton_append, releaseBlocks_joinBlocks, kept, List.map_append, List.map_cons,
    released]
  exact exists_trim_intercalate blank (framed_fence language code) _ _

/-- The code of a `pre` block is shown in a fence, with an empty line between the fence and what
stands in front of it or behind it. -/
theorem exists_proseText_block_eq (language : List Char) (before after : List Stretch)
    {html inner : List Char} (found : Rewrites preformatted.scan html [.found inner]) :
    ∃ front back,
      proseText language ((before ++ block html inner found :: after).flatMap Stretch.html) =
        front ++ (fence language (codeText inner) ++ back) ∧
      (front = [] ∨ ['\n', '\n'] <:+ front) ∧ (back = [] ∨ ['\n', '\n'] <+: back) := by
  set k := (before.filterMap code?).length with hk
  have here : ((before ++ block html inner found :: after).filterMap code?)[k]? =
      some (codeText inner) := by
    rw [List.filterMap_append, hk, List.getElem?_append_right (Nat.le_refl _), Nat.sub_self]
    rfl
  have converted : shown 0 (before ++ block html inner found :: after) =
      shown 0 before ++ '\n' :: '\n' :: (placeholder k ++ '\n' :: '\n' :: shown (k + 1) after) := by
    rw [shown_append, shown, Nat.zero_add, ← hk]
    simp
  rw [proseText_stretches, converted, collapse_append_break, collapse_append_break,
    joinBlocks_joinBlocks, collapse_placeholder]
  exact exists_trim_releaseBlocks_eq here _ _

end DocIndex.Markup
