import DocIndex.Proofs.Markup.Conversion
import DocIndex.Proofs.Text.Lines

/-!
# Code

The lines of code do not end in white space, and the last one is not empty, so that code does not
end in white space either (`firm_codeText`).

Code is shown with syntax highlighting: it is escaped, and tags stand at any places in it. A
`Fragment` is a stretch of the code or a tag. `code` undoes the highlighting (`code_html`): from any
sequence of fragments it gives the code back, with a line break for each `br` tag and nothing for
any other.
-/

namespace DocIndex.Markup

open Text

variable {c : Char} {s body rest : List Char}

/-! ## The lines of code -/

/-- The lines of marked-up code. -/
def codeLines (html : List Char) : List (List Char) :=
  stripWhile List.isEmpty
    ((lines (decode (stripTags (lineBreak.replace (fun _ => ['\n']) html)))).map trimEnd)

theorem codeText_eq (html : List Char) : codeText html = joinLines (codeLines html) :=
  rfl

theorem codeLines_spec (html : List Char) : ∀ line ∈ codeLines html, Firm line ∧ '\n' ∉ line := by
  intro line mem
  have listed := (List.dropWhile_suffix _).subset (mem_of_mem_dropEndWhile mem)
  obtain ⟨raw, hraw, rfl⟩ := List.mem_map.1 listed
  refine ⟨firm_trimEnd raw, fun hc => ?_⟩
  exact newline_notMem_of_mem_lines hraw (mem_of_mem_dropEndWhile hc)

theorem ne_nil_of_mem_getLast?_codeLines (html : List Char) :
    ∀ line ∈ (codeLines html).getLast?, line ≠ [] := by
  intro line mem
  have filled : line.isEmpty = false := not_of_mem_getLast?_dropEndWhile line mem
  simpa using filled

theorem firm_codeText (html : List Char) : Firm (codeText html) := by
  rcases List.eq_nil_or_concat' (codeLines html) with none | ⟨front, last, some⟩
  · rw [codeText_eq, none]
    exact firm_of_forall (List.forall_mem_nil _)
  · have firm := (codeLines_spec html last (by simp [some])).1
    have filled := ne_nil_of_mem_getLast?_codeLines html last (by simp [some])
    rw [codeText_eq, some, joinLines, intercalate_concat]
    exact firm.append filled _

/-! ## Escaped code -/

/-- A character of code in HTML, where quotes may be written as entities. -/
def escapeGlyph (c : Char) (quoted : Bool) : List Char :=
  if quoted && c = '"' then "&quot;".toList
  else if quoted && c = '\'' then "&#39;".toList
  else escapeChar c

theorem rewrites_decode_escapeGlyph (c : Char) (quoted : Bool) :
    Rewrites decode (escapeGlyph c quoted) [c] := by
  rw [escapeGlyph]
  split_ifs with double single
  · rw [Bool.and_eq_true, decide_eq_true_eq] at double
    rw [double.2]
    exact Pattern.rewrites_replace fun rest => rfl
  · rw [Bool.and_eq_true, decide_eq_true_eq] at single
    rw [single.2]
    exact Pattern.rewrites_replace fun rest => rfl
  · exact rewrites_decode_escapeChar c

theorem lt_notMem_escapeGlyph (c : Char) (quoted : Bool) : '<' ∉ escapeGlyph c quoted := by
  rw [escapeGlyph]
  split_ifs
  · decide
  · decide
  · simpa [escape] using lt_notMem_escape [c]

/-! ## Line breaks -/

/-- Whether what stands between `<` and `>` makes a tag a line break: its name in any case, white
space and a slash or not. -/
def isBreak : List Char → Bool
  | b :: r :: tail =>
    b.toLower = 'b' && r.toLower = 'r' &&
      (tail.dropWhile isBlank = [] || tail.dropWhile isBlank = ['/'])
  | _ => false

theorem sameLetter_b_iff : sameLetter 'b' c = true ↔ c.toLower = 'b' :=
  sameLetter_iff_toLower (by decide) (by decide) (by decide)

theorem sameLetter_r_iff : sameLetter 'r' c = true ↔ c.toLower = 'r' :=
  sameLetter_iff_toLower (by decide) (by decide) (by decide)

theorem word?_br (b r : Char) (s : List Char) : word? "<br".toList ('<' :: b :: r :: s) =
    if b.toLower = 'b' ∧ r.toLower = 'r' then some s else none := by
  show (if sameLetter '<' '<' then (if sameLetter 'b' b then (if sameLetter 'r' r then some s
    else none) else none) else none) = _
  rw [if_pos (sameLetter_refl _), ite_and]
  simp only [sameLetter_b_iff, sameLetter_r_iff]

theorem read?_lineBreak_iff : lineBreak.read? s = some ((), rest) ↔ ∃ r,
    word? "<br".toList s = some r ∧
      (r.dropWhile isBlank = '>' :: rest ∨ r.dropWhile isBlank = '/' :: '>' :: rest) := by
  refine Option.bind_eq_some_iff.trans (exists_congr fun r => and_congr_right fun _ => ?_)
  split
  · next same => simp [same]
  · next same => simp [same]
  · next other other' =>
    simp only [reduceCtorEq, false_iff, not_or]
    exact ⟨other rest, other' rest⟩

/-- White space in front of the end of a tag is passed over. -/
theorem dropWhile_append_gt (s rest : List Char) :
    (s ++ '>' :: rest).dropWhile isBlank = s.dropWhile isBlank ++ '>' :: rest := by
  rw [List.dropWhile_append]
  split_ifs with none
  · rw [List.isEmpty_iff.1 none, List.dropWhile_cons_of_neg (by decide), List.nil_append]
  · rfl

/-- The first `>` ends a tag. -/
theorem append_gt_eq_iff (closed : '>' ∉ s) {t : List Char} :
    (s ++ '>' :: rest = '>' :: t ↔ s = [] ∧ rest = t) ∧
      (s ++ '>' :: rest = '/' :: '>' :: t ↔ s = ['/'] ∧ rest = t) := by
  match s with
  | [] => simp
  | [c] =>
    rw [List.mem_singleton] at closed
    simp [Ne.symm closed]
  | c :: d :: s =>
    simp only [List.mem_cons, not_or] at closed
    simp [Ne.symm closed.1, Ne.symm closed.2.1]

/-- A tag is read as a line break exactly if it is one. -/
theorem read?_lineBreak (closed : '>' ∉ body) (rest : List Char) :
    lineBreak.read? ('<' :: (body ++ '>' :: rest)) =
      if isBreak body then some ((), rest) else none := by
  match body with
  | [] => rfl
  | [b] =>
    have short : word? "<br".toList ('<' :: b :: '>' :: rest) = none := by
      rw [word?_br, if_neg fun letters => absurd letters.2 (by decide)]
    exact congrArg (Option.bind · _) short
  | b :: r :: tail =>
    have inner : '>' ∉ tail.dropWhile isBlank := fun mem => closed
      (List.mem_cons_of_mem _ (List.mem_cons_of_mem _ ((List.dropWhile_suffix isBlank).subset mem)))
    refine Option.ext fun ⟨⟨⟩, t⟩ => ?_
    rw [read?_lineBreak_iff, List.cons_append, List.cons_append, word?_br, isBreak]
    by_cases letters : b.toLower = 'b' ∧ r.toLower = 'r'
    · simp [letters, dropWhile_append_gt, append_gt_eq_iff inner, ← or_and_right]
    · rw [if_neg letters, if_neg]
      · simp
      · simp_all

/-! ## Fragments -/

/-- A fragment of highlighted code: a stretch of the code, with the quotes that are written as
entities, or a tag. -/
inductive Fragment where
  | text (glyphs : List (Char × Bool))
  | tag (body : List Char) (ne : body ≠ []) (plain : '<' ∉ body ∧ '>' ∉ body)

namespace Fragment

/-- The fragment in HTML. -/
def html : Fragment → List Char
  | text glyphs => glyphs.flatMap fun (c, quoted) => escapeGlyph c quoted
  | tag body _ _ => '<' :: (body ++ ['>'])

/-- What the fragment stands for. -/
def source : Fragment → List Char
  | text glyphs => glyphs.map Prod.fst
  | tag body _ _ => if isBreak body then ['\n'] else []

/-- What is left of a tag where line breaks are replaced. -/
theorem rewrites_lineBreak (plain : '<' ∉ body ∧ '>' ∉ body) :
    Rewrites (lineBreak.replace fun _ => ['\n']) ('<' :: (body ++ ['>']))
      (if isBreak body then ['\n'] else '<' :: (body ++ ['>'])) := by
  have read (rest : List Char) := read?_lineBreak plain.2 rest
  split_ifs at read ⊢ with breaks
  · exact Pattern.rewrites_replace fun rest => by simpa using read rest
  · refine (Pattern.Keeps.cons (fun rest => ?_) (opens_lineBreak.keeps_text ?_)).replace
    · simpa using read rest
    · simpa using plain.1

theorem rewrites_stripTags (ne : body ≠ []) (closed : '>' ∉ body) :
    Rewrites stripTags ('<' :: (body ++ ['>'])) [] := by
  refine Pattern.rewrites_replace (a := ()) fun rest => ?_
  obtain ⟨c, r, rfl⟩ := List.exists_cons_of_ne_nil ne
  rw [List.mem_cons, not_or] at closed
  have shape : '<' :: (c :: r ++ ['>']) ++ rest = '<' :: c :: (r ++ '>' :: rest) := by simp
  rw [shape]
  show (if c = '>' then none else (close? (r ++ '>' :: rest)).map ((), ·)) = _
  rw [if_neg (Ne.symm closed.1), close?_append closed.2, Option.map_some]

/-- Each fragment becomes what it stands for, whatever comes behind it. -/
theorem rewrites (f : Fragment) :
    Rewrites (fun s => decode (stripTags (lineBreak.replace (fun _ => ['\n']) s)))
      f.html f.source := by
  cases f with
  | text glyphs =>
    have plain : '<' ∉ (text glyphs).html := by
      rw [html, List.mem_flatMap]
      rintro ⟨⟨c, quoted⟩, -, mem⟩
      exact lt_notMem_escapeGlyph c quoted mem
    have decoded : Rewrites decode (text glyphs).html (text glyphs).source := by
      have each := Rewrites.flatMap (l := glyphs) fun g _ => rewrites_decode_escapeGlyph g.1 g.2
      rwa [← List.map_eq_flatMap] at each
    exact ((opens_lineBreak.keeps_text plain).replace.comp
      (rewrites_stripTags_of_plain plain)).comp decoded
  | tag body ne plain =>
    have broken := rewrites_lineBreak plain
    rw [html, source]
    split_ifs at broken ⊢ with breaks
    · exact (broken.comp (rewrites_stripTags_of_plain (by decide))).comp
        (rewrites_decode_of_plain (by decide))
    · exact (broken.comp (rewrites_stripTags ne plain.2)).comp .nil

end Fragment

/-- Code is got back from its highlighted form. Each stretch of it is decoded once, a `br` tag is a
line break, and other tags are nothing. White space at the ends of lines is lost, and so are blank
lines in front of the first line that is not blank and behind the last one. -/
theorem code_html (fragments : List Fragment) :
    code (String.ofList (fragments.flatMap Fragment.html)) =
      String.ofList (joinLines (stripWhile List.isEmpty
        (((fragments.flatMap Fragment.source).splitOn '\n').map trimEnd))) := by
  have plain := (Rewrites.flatMap fun f (_ : f ∈ fragments) => f.rewrites).eq
    (by simp [stripTags_nil])
  rw [code, String.toList_ofList, codeText, plain, stripWhile_map_trimEnd_lines]

example : code "<b>if</b> a &amp;lt; &quot;x&#39;<br/>\n\n  &lt;<i\n>b</i>\t\n" =
    "if a &lt; \"x'\n\n\n  <b" := by decide +kernel

end DocIndex.Markup
