import DocIndex.Markup.Prose
import DocIndex.Proofs.Markup.Entity
import DocIndex.Proofs.Markup.Tag

/-!
# What markup is converted to

The markup of documentation is converted in passes, each of which looks for its own tags. A part of
the documentation is kept by the passes in front of the one that rewrites it, as its tags are
`Apart` from theirs. What is written there holds no `<`, so that the later passes keep it.
`Converts html shown` says that a part of documentation is no `pre` block and ends up as `shown`,
whatever stands behind it; such parts can be put side by side.
-/

namespace DocIndex.Markup

open Text

variable {s t html shown : List Char} {name : String} {k : Nat}

/-! ## Passes -/

/-- A pass over documentation: it rewrites nothing but tags that start with one of the words. -/
structure Pass where
  write : List Char → List Char
  words : List String
  keeps_text : ∀ {s}, '<' ∉ s → Rewrites write s s
  keeps_tag : ∀ {body}, '<' ∉ body → (∀ w ∈ words, clash w.toList body = true) →
    Rewrites write ('<' :: body) ('<' :: body)

/-- The pass that writes something for each match of a pattern. -/
def Pass.of {α : Type} {p : Pattern α} {words : List String} (opens : Opens p words)
    (write : α → List Char) : Pass where
  write := p.replace write
  words := words
  keeps_text plain := (opens.keeps_text plain).replace
  keeps_tag plain other := (opens.keeps_tag plain other).replace

/-- The passes of the conversion. -/
def passes : List Pass := [
  .of opens_lineBreak fun _ => ['\n'],
  .of (opens_boundary ["p"]) fun _ => "\n\n".toList,
  .of (opens_boundary ["ul", "ol"]) fun _ => "\n\n".toList,
  .of (opens_openingTag ["li"]) fun _ => "\n- ".toList,
  .of (opens_element true ["h1", "h2", "h3", "h4", "h5", "h6"]) fun inner =>
    "\n\n**".toList ++ trim (stripTags inner) ++ "**\n\n".toList,
  .of (opens_element true ["code"]) fun inner => '\x60' :: stripTags inner ++ ['\x60'],
  .of (opens_element false ["strong", "b"]) fun inner => "**".toList ++ inner ++ "**".toList,
  .of (opens_element false ["em", "i"]) fun inner => '*' :: inner ++ ['*'],
  .of opens_link linkText]

theorem convertTags_eq (s : List Char) :
    convertTags s = passes.foldl (fun s pass => pass.write s) s :=
  rfl

theorem rewrites_foldl {l : List Pass} (keep : ∀ pass ∈ l, Rewrites pass.write s s) :
    Rewrites (fun s => l.foldl (fun s pass => pass.write s) s) s s := by
  induction l with
  | nil => exact fun rest => rfl
  | cons pass l ih =>
    rw [List.forall_mem_cons] at keep
    exact keep.1.comp (ih keep.2)

/-- What the first passes keep and the next one writes without `<` is what is written in the end. -/
theorem rewrites_convertTags {pass : Pass} (here : passes[k]? = some pass)
    (keep : ∀ pass ∈ passes.take k, Rewrites pass.write s s) (turn : Rewrites pass.write s t)
    (plain : '<' ∉ t) : Rewrites convertTags s t := by
  obtain ⟨hk, rfl⟩ := List.getElem?_eq_some_iff.1 here
  have split (s : List Char) : convertTags s =
      (passes.drop (k + 1)).foldl (fun s pass => pass.write s)
        (passes[k].write ((passes.take k).foldl (fun s pass => pass.write s) s)) := by
    rw [convertTags_eq, ← List.foldl_cons (f := fun s (pass : Pass) => pass.write s),
      ← List.drop_eq_getElem_cons, ← List.foldl_append, List.take_append_drop]
  have later := rewrites_foldl fun pass (_ : pass ∈ passes.drop (k + 1)) => pass.keeps_text plain
  intro tail
  rw [split, split]
  exact ((rewrites_foldl keep).comp turn).comp later tail

/-! ## Tags that are kept -/

/-- Whether a tag is none of those that start a `pre` block or that the first passes look for. The
tag is given without its `<`. -/
def Apart (k : Nat) (body : List Char) : Prop :=
  '<' ∉ body ∧ (clash "pre".toList body &&
    (passes.take k).all fun pass => pass.words.all fun w => clash w.toList body) = true

instance (k : Nat) (body : List Char) : Decidable (Apart k body) :=
  inferInstanceAs (Decidable (_ ∧ _))

theorem preformatted_keeps_text (plain : '<' ∉ s) : preformatted.Keeps s :=
  (opens_element true ["pre"]).keeps_text plain

theorem Apart.preformatted_keeps {body : List Char} (apart : Apart k body) :
    preformatted.Keeps ('<' :: body) := by
  obtain ⟨plain, other⟩ := apart
  rw [Bool.and_eq_true] at other
  exact (opens_element true ["pre"]).keeps_tag plain (List.forall_mem_singleton.2 other.1)

theorem Apart.keeps {body : List Char} (apart : Apart k body) {pass : Pass}
    (hp : pass ∈ passes.take k) : Rewrites pass.write ('<' :: body) ('<' :: body) := by
  obtain ⟨plain, other⟩ := apart
  rw [Bool.and_eq_true] at other
  exact pass.keeps_tag plain (List.all_eq_true.1 (List.all_eq_true.1 other.2 pass hp))

/-! ## Parts of documentation -/

theorem stripTags_nil : stripTags [] = [] :=
  Pattern.replace_nil

/-- The plain text of documentation with the Markdown of its tags. -/
def convert (s : List Char) : List Char :=
  decode (stripTags (convertTags s))

theorem convert_nil : convert [] = [] := by
  simp [convert, convertTags, stripTags_nil]

/-- Whether a part of documentation without `pre` blocks is shown as a text. -/
structure Converts (html shown : List Char) : Prop where
  kept : preformatted.Keeps html
  converted : Rewrites convert html shown

theorem rewrites_stripTags_of_plain (plain : '<' ∉ s) : Rewrites stripTags s s := by
  refine Pattern.Keeps.replace (Pattern.keeps_of_forall fun c hc rest => ?_)
  unfold anyTag
  dsimp only
  split
  · next same =>
    cases same
    exact absurd hc plain
  · rfl

theorem stripTags_of_plain (plain : '<' ∉ s) : stripTags s = s :=
  (rewrites_stripTags_of_plain plain).eq stripTags_nil

namespace Converts

theorem nil : Converts [] [] :=
  ⟨Pattern.keeps_nil, .nil⟩

theorem append {html' shown' : List Char} (h : Converts html shown) (h' : Converts html' shown') :
    Converts (html ++ html') (shown ++ shown') :=
  ⟨h.kept.append h'.kept, h.converted.append h'.converted⟩

theorem flatMap {ι : Type} {l : List ι} {html shown : ι → List Char}
    (h : ∀ i ∈ l, Converts (html i) (shown i)) : Converts (l.flatMap html) (l.flatMap shown) := by
  induction l with
  | nil => exact nil
  | cons i l ih =>
    rw [List.forall_mem_cons] at h
    rw [List.flatMap_cons, List.flatMap_cons]
    exact h.1.append (ih h.2)

theorem of_plain (kept : preformatted.Keeps html) (tags : Rewrites convertTags html t)
    (plain : '<' ∉ t) (entities : Rewrites decode t shown) : Converts html shown :=
  ⟨kept, (tags.comp (rewrites_stripTags_of_plain plain)).comp entities⟩

/-- Without tags there is nothing to do but to decode. -/
theorem text (plain : '<' ∉ html) (entities : Rewrites decode html shown) :
    Converts html shown := by
  have kept : Rewrites convertTags html html :=
    rewrites_foldl (l := passes) fun pass _ => pass.keeps_text plain
  exact of_plain (preformatted_keeps_text plain) kept plain entities

/-- Plain text is shown as it is. -/
theorem escaped (s : List Char) : Converts (escape s) s :=
  text (lt_notMem_escape s) (rewrites_decode_escape s)

/-- A tag is shown as what its pass writes. -/
theorem tag {pass : Pass} (here : passes[k]? = some pass) {body : List Char} (apart : Apart k body)
    (turn : Rewrites pass.write ('<' :: body) shown) (plain : '<' ∉ shown ∧ '&' ∉ shown) :
    Converts ('<' :: body) shown :=
  of_plain apart.preformatted_keeps (rewrites_convertTags here (fun _ => apart.keeps) turn plain.1)
    plain.1 (rewrites_decode_of_plain plain.2)

/-- An element that no other one stands in is shown as what its pass writes for the text in it. -/
theorem element {loose : Bool} {names : List String} {write : List Char → List Char}
    (here : passes[k]? = some (.of (opens_element loose names) write))
    (apart : Apart k (name.toList ++ ['>']) ∧ Apart k ('/' :: (name.toList ++ ['>'])))
    (picks : Picks names name ∧ ∀ name ∈ names, '<' ∉ name.toList) (inner : '<' ∉ s)
    (written : write s = t) (plain : '<' ∉ t) (entities : Rewrites decode t shown) :
    Converts (startTag name ++ (s ++ endTag name)) shown := by
  obtain ⟨apart, apart'⟩ := apart
  obtain ⟨picks, names_plain⟩ := picks
  have opened (rest : List Char) : opening? names (if loose then close? else closeName?)
      (startTag name ++ rest) = some rest := by
    cases loose
    · exact picks.opening? closeName?_gt rest
    · exact picks.opening? close?_gt rest
  have turn : Rewrites ((Markup.element loose names).replace write)
      (startTag name ++ (s ++ endTag name)) (write s) :=
    Pattern.rewrites_replace (read?_element opened names_plain picks (inner?_of_plain inner))
  rw [written] at turn
  refine of_plain ?_ (rewrites_convertTags here (fun pass hp => ?_) turn plain) plain entities
  · exact apart.preformatted_keeps.append
      ((preformatted_keeps_text inner).append apart'.preformatted_keeps)
  · exact (apart.keeps hp).append ((pass.keeps_text inner).append (apart'.keeps hp))

theorem paragraph_start : Converts (startTag "p") "\n\n".toList :=
  tag (k := 1) rfl (by decide) (rewrites_boundary_startTag (by decide) (by decide)) (by decide)

theorem paragraph_end : Converts (endTag "p") "\n\n".toList :=
  tag (k := 1) rfl (by decide) (rewrites_boundary_endTag (by decide)) (by decide)

theorem list_start : Converts (startTag "ul") "\n\n".toList :=
  tag (k := 2) rfl (by decide) (rewrites_boundary_startTag (by decide) (by decide)) (by decide)

theorem list_end : Converts (endTag "ul") "\n\n".toList :=
  tag (k := 2) rfl (by decide) (rewrites_boundary_endTag (by decide)) (by decide)

theorem item_start : Converts (startTag "li") "\n- ".toList :=
  tag (k := 3) rfl (by decide) (rewrites_openingTag (by decide)) (by decide)

/-- The end of an item has no pass of its own and vanishes with the tags that are left. -/
theorem item_end : Converts (endTag "li") [] := by
  have apart : Apart 9 ('/' :: ("li".toList ++ ['>'])) := by decide
  have kept : Rewrites convertTags (endTag "li") (endTag "li") :=
    rewrites_foldl (l := passes) fun pass hp => apart.keeps hp
  have stripped : Rewrites stripTags (endTag "li") [] := Pattern.rewrites_replace fun rest => rfl
  exact ⟨apart.preformatted_keeps, (kept.comp stripped).comp .nil⟩

end Converts

theorem rewrites_decode_between {front back : List Char} (plain : '&' ∉ front ∧ '&' ∉ back)
    (s : List Char) :
    Rewrites decode (front ++ (escape s ++ back)) (front ++ (s ++ back)) :=
  (rewrites_decode_of_plain plain.1).append
    ((rewrites_decode_escape s).append (rewrites_decode_of_plain plain.2))

/-- The names of headings. -/
def headingName : Fin 6 → String
  | 0 => "h1"
  | 1 => "h2"
  | 2 => "h3"
  | 3 => "h4"
  | 4 => "h5"
  | 5 => "h6"

/-- A heading is shown in bold in a paragraph of its own. -/
theorem converts_heading (level : Fin 6) (framed : Framed s) :
    Converts (startTag (headingName level) ++ (escape s ++ endTag (headingName level)))
      ("\n\n**".toList ++ (s ++ "**\n\n".toList)) := by
  have plain := lt_notMem_escape s
  refine .element (k := 4) rfl (by decide +revert) (by decide +revert) plain ?_ ?_
    (rewrites_decode_between (by decide) s)
  · rw [stripTags_of_plain plain, (framed_escape framed).trim_eq, List.append_assoc]
  · simpa using plain

/-! ## Styles -/

/-- The ways in which a run of words may be set apart. -/
inductive Style where
  | code
  | strong
  | bold
  | emphasis
  | italic

namespace Style

/-- The name of the tag. -/
def tag : Style → String
  | code => "code"
  | strong => "strong"
  | bold => "b"
  | emphasis => "em"
  | italic => "i"

/-- What is written on both sides of the words. -/
def mark : Style → List Char
  | code => ['\x60']
  | strong | bold => ['*', '*']
  | emphasis | italic => ['*']

end Style

theorem converts_style (style : Style) (s : List Char) :
    Converts (startTag style.tag ++ (escape s ++ endTag style.tag))
      (style.mark ++ (s ++ style.mark)) := by
  have inner := lt_notMem_escape s
  have plain : '<' ∉ style.mark ++ (escape s ++ style.mark) := by
    cases style <;> simp [Style.mark, inner]
  have entities : Rewrites decode (style.mark ++ (escape s ++ style.mark))
      (style.mark ++ (s ++ style.mark)) :=
    rewrites_decode_between (by cases style <;> decide) s
  cases style with
  | code =>
    refine .element (k := 5) rfl (by decide) (by decide) inner ?_ plain entities
    rw [stripTags_of_plain inner]
    rfl
  | strong =>
    exact .element (k := 6) rfl (by decide) (by decide) inner (List.append_assoc ..) plain entities
  | bold =>
    exact .element (k := 6) rfl (by decide) (by decide) inner (List.append_assoc ..) plain entities
  | emphasis => exact .element (k := 7) rfl (by decide) (by decide) inner rfl plain entities
  | italic => exact .element (k := 7) rfl (by decide) (by decide) inner rfl plain entities

end DocIndex.Markup
