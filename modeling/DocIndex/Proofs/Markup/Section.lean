import DocIndex.Proofs.Markup.Stretch

/-!
# Documentation section by section

Documentation is a list of sections: `pre` blocks, and parts that are shown as a paragraph of their
own. Its Markdown is that of the sections, with an empty line between each two that are not empty
(`proseText_sections`): `pre` blocks come back in the places of their numbers.
-/

namespace DocIndex.Markup

open Text

variable {language : List Char} {blocks : List (List Char)} {secs : List Section}

/-! ## Listings -/

/-- A `pre` block: what its opening tag holds, and the markup inside it. -/
structure Listing where
  attributes : List Char
  inner : List Char
  closed : '>' ∉ attributes
  unclosed : inner? ["pre"] inner = none

namespace Listing

/-- The `pre` block in HTML. -/
def html (l : Listing) : List Char :=
  "<pre".toList ++ l.attributes ++ ['>'] ++ (l.inner ++ endTag "pre")

/-- The `pre` block in Markdown. -/
def markdown (language : List Char) (l : Listing) : List Char :=
  fence language (codeText l.inner)

theorem rewrites_scan (l : Listing) :
    Rewrites preformatted.scan l.html [.found l.inner] := by
  refine Pattern.rewrites_scan (read?_element (fun rest => ?_) (by decide) (by decide) l.unclosed)
  have shape : "<pre".toList ++ l.attributes ++ ['>'] ++ rest =
      ['<'] ++ ("pre".toList ++ (l.attributes ++ '>' :: rest)) := by simp
  rw [shape, opening?, word?_append_self, Option.bind_some, oneOf?, List.findSome?_cons,
    word?_append_self, Option.bind_some, if_pos rfl, close?_append l.closed]

end Listing

/-! ## Sections -/

/-- A part of documentation: HTML that becomes a paragraph of its own, or a `pre` block. -/
inductive Section where
  | text (html body : List Char) (converts : Converts html (['\n', '\n'] ++ (body ++ ['\n', '\n'])))
  | listing (l : Listing)

namespace Section

/-- The section in HTML. -/
def html : Section → List Char
  | text html _ _ => html
  | listing l => l.html

/-- The code of a `pre` block. -/
def code? : Section → Option (List Char)
  | text _ _ _ => none
  | listing l => some (codeText l.inner)

/-- What is shown of a section, if `blocks` is the code of all `pre` blocks. -/
def shown (language : List Char) (blocks : List (List Char)) : Section → List Char
  | text _ body _ => releaseBlocks language blocks (collapse body)
  | listing l => l.markdown language

/-- The section as a stretch of documentation. -/
def stretch : Section → Stretch
  | text html _ converts => .markup html _ converts
  | listing l => .block l.html l.inner l.rewrites_scan

/-- The sections with the next placeholder in the place of each `pre` block. -/
def bodies (n : Nat) : List Section → List (List Char)
  | [] => []
  | text _ body _ :: secs => body :: bodies n secs
  | listing _ :: secs => placeholder n :: bodies (n + 1) secs

end Section

open Section

theorem html_stretch (sec : Section) : sec.stretch.html = sec.html := by
  cases sec <;> rfl

theorem code?_stretch (sec : Section) : sec.stretch.code? = sec.code? := by
  cases sec <;> rfl

theorem shown_stretches (n : Nat) (secs : List Section) :
    Stretch.shown n (secs.map stretch) =
      (bodies n secs).flatMap fun b => ['\n', '\n'] ++ (b ++ ['\n', '\n']) := by
  induction secs generalizing n with
  | nil => rfl
  | cons sec secs ih =>
    rw [List.map_cons]
    cases sec with
    | text html body converts => rw [stretch, Stretch.shown, ih, bodies, List.flatMap_cons]
    | listing l => rw [stretch, Stretch.shown, ih, bodies, List.flatMap_cons]

theorem proseText_eq (language : List Char) (secs : List Section) :
    proseText language (secs.flatMap html) =
      trim (releaseBlocks language (secs.filterMap code?)
        (joinBlocks ((bodies 0 secs).map collapse))) := by
  have whole : secs.flatMap html = (secs.map stretch).flatMap Stretch.html := by
    rw [List.flatMap_map]
    exact List.flatMap_congr fun sec _ => (html_stretch sec).symm
  have codes : (secs.map stretch).filterMap Stretch.code? = secs.filterMap code? := by
    rw [List.filterMap_map]
    exact List.filterMap_congr fun sec _ => code?_stretch sec
  rw [whole, proseText_stretches, codes, shown_stretches, collapse_blocks]

/-! ## What is shown -/

theorem releaseBlocks_bodies_behind (before : List (List Char)) (secs : List Section)
    (all : blocks = before ++ secs.filterMap code?) :
    ((bodies before.length secs).map collapse).map (releaseBlocks language blocks) =
      secs.map (shown language blocks) := by
  induction secs generalizing before with
  | nil => rfl
  | cons sec secs ih =>
    cases sec with
    | text html body converts =>
      rw [bodies, List.map_cons, List.map_cons, List.map_cons, ih before all]
      rfl
    | listing l =>
      have here : blocks[before.length]? = some (codeText l.inner) := by simp [all, code?]
      have next := ih (before ++ [codeText l.inner]) (by simp [all, code?])
      rw [List.length_append, List.length_singleton] at next
      rw [bodies, List.map_cons, List.map_cons, List.map_cons, next, collapse_placeholder,
        releaseBlocks_placeholder, here]
      rfl

/-- The placeholders are released as the blocks that they stand for. -/
theorem releaseBlocks_bodies (secs : List Section) :
    ((bodies 0 secs).map collapse).map (releaseBlocks language (secs.filterMap code?)) =
      secs.map (shown language (secs.filterMap code?)) :=
  releaseBlocks_bodies_behind [] secs rfl

theorem words_releaseBlocks_joinBlocks (l : List (List Char)) :
    words (releaseBlocks language blocks (joinBlocks l)) =
      (l.map (releaseBlocks language blocks)).flatMap words := by
  have blank : ∀ c ∈ ['\n', '\n'], isBlank c = true :=
    List.forall_mem_cons.2 ⟨rfl, List.forall_mem_singleton.2 rfl⟩
  rw [releaseBlocks_joinBlocks, words_intercalate (List.cons_ne_nil _ _) blank]
  induction l with
  | nil => rfl
  | cons b l ih =>
    cases b with
    | nil =>
      rw [List.filter_cons_of_neg (by simp), ih, List.map_cons, List.flatMap_cons,
        releaseBlocks_nil]
      rfl
    | cons c b =>
      rw [List.filter_cons_of_pos (by simp), List.map_cons, List.flatMap_cons, ih, List.map_cons,
        List.flatMap_cons]

/-- The words of documentation are those of its sections, in order. -/
theorem words_proseText (language : List Char) (secs : List Section) :
    words (proseText language (secs.flatMap html)) =
      secs.flatMap fun sec => words (sec.shown language (secs.filterMap code?)) := by
  rw [proseText_eq, words_trim, words_releaseBlocks_joinBlocks, releaseBlocks_bodies,
    List.flatMap_map]

theorem collapse_bodies_ne_nil (n : Nat)
    (filled : ∀ html body converts, text html body converts ∈ secs → collapse body ≠ []) :
    ∀ body ∈ bodies n secs, collapse body ≠ [] := by
  induction secs generalizing n with
  | nil => simp [bodies]
  | cons sec secs ih =>
    have later (n : Nat) := ih n fun html body converts mem =>
      filled html body converts (List.mem_cons_of_mem _ mem)
    cases sec with
    | text html body converts =>
      exact List.forall_mem_cons.2 ⟨filled _ _ _ List.mem_cons_self, later n⟩
    | listing l =>
      refine List.forall_mem_cons.2 ⟨?_, later (n + 1)⟩
      rw [collapse_placeholder]
      simp [placeholder]

/-- If no section is empty, they are shown with an empty line between each two. -/
theorem proseText_sections (language : List Char)
    (filled : ∀ html body converts, text html body converts ∈ secs → collapse body ≠ []) :
    proseText language (secs.flatMap html) = trim (['\n', '\n'].intercalate
      (secs.map (shown language (secs.filterMap code?)))) := by
  have all : ((bodies 0 secs).map collapse).filter (fun b => !b.isEmpty) =
      (bodies 0 secs).map collapse := by
    rw [List.filter_eq_self, List.forall_mem_map]
    exact fun body mem => by simpa using collapse_bodies_ne_nil 0 filled body mem
  rw [proseText_eq, releaseBlocks_joinBlocks, all, releaseBlocks_bodies]

end DocIndex.Markup
