import Mathlib.Data.List.TakeWhile
import DocIndex.Proofs.Text.Blank

/-!
# Words

White space between two texts keeps their words apart (`words_append_cons`), and with that what
surrounds, separates or trims texts says nothing about their words. A text is `Tight` if it has no
white space but single blanks between its words, and it is then its words on one line
(`Tight.eq_oneLine`).
-/

namespace DocIndex.Text

variable {c : Char} {s t w : List Char}

@[simp]
theorem words_nil : words [] = [] :=
  rfl

/-- White space keeps the words in front of it from those behind it. -/
theorem words_append_cons (blank : isBlank c = true) (s t : List Char) :
    words (s ++ c :: t) = words s ++ words t := by
  rw [words, List.splitOnP_append_cons s t blank, List.filter_append]
  rfl

theorem words_cons_of_blank (blank : isBlank c = true) (s : List Char) :
    words (c :: s) = words s :=
  words_append_cons blank [] s

/-- A text without white space is its only word. -/
theorem words_eq_singleton (ne : s ≠ []) (solid : ∀ c ∈ s, isBlank c = false) :
    words s = [s] := by
  rw [words, List.splitOnP_eq_singleton fun c hc => by simp [solid c hc]]
  simpa using ne

/-- A character that is no white space goes to the word behind it, if one starts there. -/
theorem words_cons_cons (hc : isBlank c = false) {d : Char} (hd : isBlank d = false)
    (s : List Char) : words (c :: d :: s) = (words (d :: s)).modifyHead (c :: ·) := by
  obtain ⟨first, rest, split⟩ := List.exists_cons_of_ne_nil (List.splitOnP_ne_nil isBlank s)
  simp [words, List.splitOnP_cons_eq_if_modifyHead, hc, hd, split]

theorem words_append_of_blank_left (blank : ∀ c ∈ s, isBlank c = true) (t : List Char) :
    words (s ++ t) = words t := by
  induction s with
  | nil => rfl
  | cons c s ih =>
    rw [List.forall_mem_cons] at blank
    rw [List.cons_append, words_cons_of_blank blank.1, ih blank.2]

theorem words_of_blank (blank : ∀ c ∈ s, isBlank c = true) : words s = [] := by
  simpa using words_append_of_blank_left blank []

theorem words_append_of_blank_right (blank : ∀ c ∈ t, isBlank c = true) (s : List Char) :
    words (s ++ t) = words s := by
  cases t with
  | nil => rw [List.append_nil]
  | cons c t =>
    rw [List.forall_mem_cons] at blank
    rw [words_append_cons blank.1, words_of_blank blank.2, List.append_nil]

/-- A gap of white space keeps words apart. -/
theorem words_append_append (ne : w ≠ []) (blank : ∀ c ∈ w, isBlank c = true) (s t : List Char) :
    words (s ++ (w ++ t)) = words s ++ words t := by
  obtain ⟨c, r, rfl⟩ := List.exists_cons_of_ne_nil ne
  rw [List.forall_mem_cons] at blank
  rw [List.cons_append, words_append_cons blank.1, words_append_of_blank_left blank.2]

/-! ## Texts with something between them -/

theorem intercalate_cons_of_ne_nil {sep s : List Char} {l : List (List Char)} (ne : l ≠ []) :
    sep.intercalate (s :: l) = s ++ (sep ++ sep.intercalate l) := by
  obtain ⟨t, l, rfl⟩ := List.exists_cons_of_ne_nil ne
  rw [List.intercalate_cons_cons, List.append_assoc]

theorem intercalate_cons_eq (sep s : List Char) (l : List (List Char)) :
    sep.intercalate (s :: l) = s ++ l.flatMap (sep ++ ·) := by
  induction l generalizing s with
  | nil => simp
  | cons t l ih =>
    rw [List.intercalate_cons_cons, ih, List.flatMap_cons, List.append_assoc, List.append_assoc]

theorem intercalate_append {sep : List Char} {l m : List (List Char)} (hl : l ≠ []) (hm : m ≠ []) :
    sep.intercalate (l ++ m) = sep.intercalate l ++ (sep ++ sep.intercalate m) := by
  induction l with
  | nil => exact absurd rfl hl
  | cons s l ih =>
    cases l with
    | nil => rw [List.singleton_append, intercalate_cons_of_ne_nil hm, List.intercalate_singleton]
    | cons t l =>
      rw [List.cons_append, intercalate_cons_of_ne_nil (by simp), ih (List.cons_ne_nil t l),
        List.intercalate_cons_cons]
      simp

theorem intercalate_concat (sep : List Char) (l : List (List Char)) (last : List Char) :
    sep.intercalate (l ++ [last]) = (if l = [] then [] else sep.intercalate l ++ sep) ++ last := by
  split_ifs with single
  · rw [single, List.nil_append, List.intercalate_singleton, List.nil_append]
  · rw [intercalate_append single (List.cons_ne_nil _ _), List.intercalate_singleton,
      List.append_assoc]

theorem notMem_intercalate {sep : List Char} {l : List (List Char)} (hsep : c ∉ sep)
    (h : ∀ s ∈ l, c ∉ s) : c ∉ sep.intercalate l := by
  induction l with
  | nil => simp
  | cons s l ih =>
    rw [List.forall_mem_cons] at h
    cases l with
    | nil => simpa using h.1
    | cons t l =>
      rw [List.intercalate_cons_cons]
      simp [hsep, h.1, ih h.2]

theorem words_intercalate {gap : List Char} (ne : gap ≠ []) (blank : ∀ c ∈ gap, isBlank c = true)
    (l : List (List Char)) : words (gap.intercalate l) = l.flatMap words := by
  induction l with
  | nil => rfl
  | cons s l ih =>
    cases l with
    | nil => simp
    | cons t l =>
      rw [List.intercalate_cons_cons, List.append_assoc, words_append_append ne blank, ih]
      rfl

theorem words_eq_nil_iff : words s = [] ↔ ∀ c ∈ s, isBlank c = true := by
  refine ⟨fun none => ?_, words_of_blank⟩
  induction s with
  | nil => simp
  | cons c s ih =>
    by_cases blank : isBlank c = true
    · rw [words_cons_of_blank blank] at none
      exact List.forall_mem_cons.2 ⟨blank, ih none⟩
    · rw [words, List.splitOnP_cons_eq_if_modifyHead, if_neg blank] at none
      obtain ⟨first, rest, split⟩ := List.exists_cons_of_ne_nil (List.splitOnP_ne_nil isBlank s)
      simp [split] at none

theorem words_ne_nil (hc : c ∈ s) (solid : isBlank c = false) : words s ≠ [] := by
  intro none
  simpa [solid] using words_eq_nil_iff.1 none c hc

theorem words_eq_nil_iff_of_firm (firm : Firm s) : words s = [] ↔ s = [] := by
  constructor
  · intro none
    by_contra ne
    have last := List.getLast_mem ne
    exact words_ne_nil last (firm _ (List.getLast?_eq_some_getLast ne)) none
  · rintro rfl
    rfl

/-- Words written with single blanks between them are read back. -/
theorem words_oneLine (s : List Char) : words (oneLine s) = words s := by
  rw [oneLine, words_intercalate (by decide) (List.forall_mem_singleton.2 rfl)]
  have single : ∀ w ∈ words s, words w = [w] := fun w hw =>
    words_eq_singleton (words_spec hw).1 (words_spec hw).2
  rw [List.flatMap_congr single, List.flatMap_singleton']

theorem oneLine_inj : oneLine s = oneLine t ↔ words s = words t := by
  constructor
  · intro same
    rw [← words_oneLine s, same, words_oneLine]
  · intro same
    rw [oneLine, same, oneLine]

theorem oneLine_eq_nil_iff : oneLine s = [] ↔ words s = [] := by
  constructor
  · intro none
    rw [← words_oneLine, none, words_nil]
  · intro none
    rw [oneLine, none]
    rfl

/-! ## What stands in words -/

/-- Words hold all that is no white space, in order. -/
theorem flatten_words (s : List Char) : (words s).flatten = s.filter fun c => !isBlank c := by
  rw [words, List.flatten_filter_not_isEmpty]
  induction s with
  | nil => rfl
  | cons c s ih =>
    obtain ⟨first, rest, split⟩ := List.exists_cons_of_ne_nil (List.splitOnP_ne_nil isBlank s)
    rw [split] at ih
    rw [List.splitOnP_cons_eq_if_modifyHead, split]
    cases hc : isBlank c with
    | true => simpa [hc] using ih
    | false => simpa [hc] using ih

theorem prefix_takeWhile_iff {p : Char → Bool} {m : List Char} (all : ∀ c ∈ m, p c = true) :
    m <+: s.takeWhile p ↔ m <+: s := by
  refine ⟨fun inner => List.IsPrefix.trans inner (List.takeWhile_prefix p), ?_⟩
  rintro ⟨t, rfl⟩
  rw [List.takeWhile_append_of_pos all]
  exact List.prefix_append m _

theorem exists_splitOnP_eq (s : List Char) :
    ∃ rest, s.splitOnP isBlank = s.takeWhile (fun c => !isBlank c) :: rest := by
  induction s with
  | nil => exact ⟨[], rfl⟩
  | cons c s ih =>
    obtain ⟨rest, ih⟩ := ih
    rw [List.splitOnP_cons_eq_if_modifyHead, ih]
    cases hc : isBlank c with
    | true => exact ⟨s.takeWhile (fun c => !isBlank c) :: rest, by simp [hc]⟩
    | false => exact ⟨rest, by simp [hc]⟩

theorem infix_iff_splitOnP {m : List Char} (ne : m ≠ []) (solid : ∀ c ∈ m, isBlank c = false) :
    m <:+: s ↔ ∃ piece ∈ s.splitOnP isBlank, m <:+: piece := by
  induction s with
  | nil => simp
  | cons c s ih =>
    obtain ⟨rest, split⟩ := exists_splitOnP_eq s
    rw [List.infix_cons_iff, ih, List.splitOnP_cons_eq_if_modifyHead, split]
    cases hc : isBlank c with
    | true =>
      have notHere : ¬ m <+: c :: s := by
        rw [List.prefix_cons_iff]
        rintro (rfl | ⟨t, rfl, -⟩)
        · exact ne rfl
        · simp [solid c List.mem_cons_self] at hc
      simp [notHere, ne]
    | false =>
      have here : m <+: c :: s.takeWhile (fun c => !isBlank c) ↔ m <+: c :: s := by
        have whole := prefix_takeWhile_iff (s := c :: s) (p := fun c => !isBlank c) (m := m)
          fun d hd => by simp [solid d hd]
        rwa [List.takeWhile_cons_of_pos (by simp [hc])] at whole
      simp [List.infix_cons_iff, here, or_assoc]

/-- A piece without white space stands in a text if it stands in one of its words. -/
theorem infix_iff_words {m : List Char} (ne : m ≠ []) (solid : ∀ c ∈ m, isBlank c = false) :
    m <:+: s ↔ ∃ w ∈ words s, m <:+: w := by
  rw [infix_iff_splitOnP ne solid, words]
  constructor
  · rintro ⟨piece, mem, inner⟩
    have filled : piece ≠ [] := by
      rintro rfl
      exact ne (List.infix_nil.1 inner)
    exact ⟨piece, List.mem_filter.2 ⟨mem, by simpa using filled⟩, inner⟩
  · rintro ⟨w, mem, inner⟩
    exact ⟨w, List.mem_of_mem_filter mem, inner⟩

/-! ## Trimming -/

theorem exists_eq_dropEndWhile_append {α : Type} (p : α → Bool) (l : List α) :
    ∃ tail, l = dropEndWhile p l ++ tail ∧ ∀ a ∈ tail, p a = true := by
  refine ⟨(l.reverse.takeWhile p).reverse, ?_, ?_⟩
  · rw [dropEndWhile, ← List.reverse_append, List.takeWhile_append_dropWhile, List.reverse_reverse]
  · intro a ha
    exact List.mem_takeWhile_imp (List.mem_reverse.1 ha)

theorem mem_of_mem_dropEndWhile {α : Type} {p : α → Bool} {l : List α} {a : α}
    (ha : a ∈ dropEndWhile p l) : a ∈ l := by
  obtain ⟨tail, whole, -⟩ := exists_eq_dropEndWhile_append p l
  rw [whole]
  exact List.mem_append_left tail ha

/-- Trimming takes white space off both ends and nothing else. -/
theorem exists_eq_append_trim (s : List Char) : ∃ front tail, s = front ++ (trim s ++ tail) ∧
    (∀ c ∈ front, isBlank c = true) ∧ ∀ c ∈ tail, isBlank c = true := by
  obtain ⟨tail, kept, blank⟩ := exists_eq_dropEndWhile_append isBlank (s.dropWhile isBlank)
  refine ⟨s.takeWhile isBlank, tail, ?_, fun c hc => List.mem_takeWhile_imp hc, blank⟩
  rw [trim, stripWhile, ← kept, List.takeWhile_append_dropWhile]

theorem trim_isInfix (s : List Char) : trim s <:+: s := by
  obtain ⟨front, tail, whole, -⟩ := exists_eq_append_trim s
  exact ⟨front, tail, by rw [List.append_assoc, ← whole]⟩

theorem words_trim (s : List Char) : words (trim s) = words s := by
  obtain ⟨front, tail, whole, before, behind⟩ := exists_eq_append_trim s
  conv_rhs => rw [whole, words_append_of_blank_left before, words_append_of_blank_right behind]

theorem trim_eq_nil_iff : trim s = [] ↔ words s = [] := by
  constructor
  · intro none
    rw [← words_trim, none, words_nil]
  · intro none
    rw [words_eq_nil_iff] at none
    rw [trim, stripWhile, List.dropWhile_eq_nil_iff.2 none]
    rfl

theorem not_of_mem_getLast?_dropEndWhile {α : Type} {p : α → Bool} {l : List α} :
    ∀ a ∈ (dropEndWhile p l).getLast?, p a = false := by
  intro a ha
  rw [dropEndWhile, List.getLast?_reverse] at ha
  have stop := List.head?_dropWhile_not p l.reverse
  rw [Option.mem_def] at ha
  rw [ha] at stop
  simpa using stop

theorem firm_trimEnd (s : List Char) : Firm (trimEnd s) :=
  not_of_mem_getLast?_dropEndWhile

theorem firm_trim (s : List Char) : Firm (trim s) :=
  not_of_mem_getLast?_dropEndWhile

theorem isBlank_head?_trim (s : List Char) : ∀ c ∈ (trim s).head?, isBlank c = false := by
  intro c hc
  obtain ⟨tail, kept, -⟩ := exists_eq_dropEndWhile_append isBlank (s.dropWhile isBlank)
  have front : c ∈ (s.dropWhile isBlank).head? := by
    rw [kept, List.head?_append]
    rw [trim, stripWhile] at hc
    rw [Option.mem_def.1 hc]
    rfl
  have stop := List.head?_dropWhile_not isBlank s
  rw [Option.mem_def] at front
  rw [front] at stop
  simpa using stop

theorem trim_eq_self (front : ∀ c ∈ s.head?, isBlank c = false) (firm : Firm s) : trim s = s := by
  cases s with
  | nil => rfl
  | cons c r =>
    have here : isBlank c = false := front c (by simp)
    rw [trim, stripWhile, List.dropWhile_cons_of_neg (by simp [here])]
    exact dropEndWhile_eq_self firm

theorem dropEndWhile_concat {α : Type} {p : α → Bool} {a : α} (ha : p a = true) (l : List α) :
    dropEndWhile p (l ++ [a]) = dropEndWhile p l := by
  simp [dropEndWhile, ha]

theorem stripWhile_concat {α : Type} {p : α → Bool} {a : α} (ha : p a = true) (l : List α) :
    stripWhile p (l ++ [a]) = stripWhile p l := by
  rw [stripWhile, stripWhile, List.dropWhile_append]
  split_ifs with none
  · simp only [List.isEmpty_iff] at none
    simp [none, ha, dropEndWhile]
  · exact dropEndWhile_concat ha _

theorem trim_append_of_blank {blank : Char} (hb : isBlank blank = true) (s : List Char) :
    trim (s ++ [blank]) = trim s :=
  stripWhile_concat hb s

/-- Where something is dropped from the front, a part at the end is dropped with all the rest or not
at all. -/
theorem suffix_dropWhile {α : Type} {p : α → Bool} {sep l : List α} (h : sep <:+ l)
    (all : ∀ a ∈ sep, p a = true) : l.dropWhile p = [] ∨ sep <:+ l.dropWhile p := by
  rcases List.suffix_or_suffix_of_suffix h (List.dropWhile_suffix p) with inner | outer
  · exact .inr inner
  · refine .inl (List.eq_nil_iff_forall_not_mem.2 fun a ha => ?_)
    obtain ⟨b, r, split⟩ := List.exists_cons_of_ne_nil (List.ne_nil_of_mem ha)
    have stop := List.head?_dropWhile_not p l
    have mem : b ∈ sep := outer.subset (split ▸ List.mem_cons_self)
    simp [split, all b mem] at stop

theorem prefix_dropEndWhile {α : Type} {p : α → Bool} {sep l : List α} (h : sep <+: l)
    (all : ∀ a ∈ sep, p a = true) : dropEndWhile p l = [] ∨ sep <+: dropEndWhile p l := by
  have mirrored := suffix_dropWhile (List.reverse_suffix.2 h) fun a ha =>
    all a (List.mem_reverse.1 ha)
  rw [dropEndWhile, List.reverse_eq_nil_iff]
  refine mirrored.imp_right fun inner => ?_
  rwa [← List.reverse_suffix, List.reverse_reverse]

theorem dropEndWhile_append {α : Type} {p : α → Bool} {l : List α} (ne : l ≠ [])
    (stop : ∀ a ∈ l.getLast?, p a = false) (m : List α) :
    dropEndWhile p (l ++ m) = l ++ dropEndWhile p m := by
  obtain ⟨front, last, rfl⟩ := (List.eq_nil_or_concat' l).resolve_left ne
  have kept : p last = false := stop last List.getLast?_concat
  rw [dropEndWhile, dropEndWhile, List.reverse_append, List.dropWhile_append]
  split_ifs with none
  · rw [List.isEmpty_iff.1 none]
    simp [kept]
  · simp

/-- Whether a text is not empty and has white space at neither end. -/
structure Framed (s : List Char) : Prop where
  ne : s ≠ []
  head : ∀ c ∈ s.head?, isBlank c = false
  firm : Firm s

theorem framed_of_forall (ne : s ≠ []) (solid : ∀ c ∈ s, isBlank c = false) : Framed s :=
  ⟨ne, fun c hc => solid c (List.mem_of_mem_head? hc), firm_of_forall solid⟩

namespace Framed

theorem trim_eq (framed : Framed s) : trim s = s :=
  trim_eq_self framed.head framed.firm

theorem append (hs : Framed s) (ht : Framed t) (mid : List Char) : Framed (s ++ (mid ++ t)) where
  ne := by simp [hs.ne]
  head := by
    rw [List.head?_append_of_ne_nil s hs.ne]
    exact hs.head
  firm := by
    rw [← List.append_assoc]
    exact ht.firm.append ht.ne _

theorem intercalate {sep : List Char} {l : List (List Char)} (ne : l ≠ [])
    (framed : ∀ s ∈ l, Framed s) : Framed (sep.intercalate l) := by
  induction l with
  | nil => exact absurd rfl ne
  | cons s l ih =>
    rw [List.forall_mem_cons] at framed
    cases l with
    | nil => simpa using framed.1
    | cons t l =>
      rw [intercalate_cons_of_ne_nil (List.cons_ne_nil t l)]
      exact framed.1.append (ih (List.cons_ne_nil t l) framed.2) sep

theorem trim_append (framed : Framed w) (front back : List Char) :
    trim (front ++ (w ++ back)) = front.dropWhile isBlank ++ (w ++ trimEnd back) := by
  have start : (w ++ back).dropWhile isBlank = w ++ back := by
    obtain ⟨c, r, rfl⟩ := List.exists_cons_of_ne_nil framed.ne
    exact List.dropWhile_cons_of_neg (by simp [framed.head c rfl])
  have opened : (front ++ (w ++ back)).dropWhile isBlank =
      front.dropWhile isBlank ++ w ++ back := by
    rw [List.dropWhile_append, start]
    split_ifs with none
    · rw [List.isEmpty_iff.1 none, List.nil_append]
    · rw [List.append_assoc]
  rw [trim, stripWhile, opened, dropEndWhile_append (by simp [framed.ne])
    (framed.firm.append framed.ne _), List.append_assoc]
  rfl

end Framed

/-- A part in the middle is kept by trimming, and so are the gaps next to it, unless there is
nothing beyond them. -/
theorem exists_trim_intercalate {gap : List Char} (blank : ∀ c ∈ gap, isBlank c = true)
    (framed : Framed w) (l m : List (List Char)) :
    ∃ front back, trim (gap.intercalate (l ++ w :: m)) = front ++ (w ++ back) ∧
      (front = [] ∨ gap <:+ front) ∧ (back = [] ∨ gap <+: back) := by
  obtain ⟨front, hfront, whole⟩ : ∃ front, (front = [] ∨ gap <:+ front) ∧
      gap.intercalate (l ++ w :: m) = front ++ gap.intercalate (w :: m) := by
    by_cases none : l = []
    · exact ⟨[], .inl rfl, by rw [none]; rfl⟩
    · refine ⟨gap.intercalate l ++ gap, .inr (List.suffix_append _ _), ?_⟩
      rw [intercalate_append none (List.cons_ne_nil w m), List.append_assoc]
  obtain ⟨back, hback, rest⟩ : ∃ back, (back = [] ∨ gap <+: back) ∧
      gap.intercalate (w :: m) = w ++ back := by
    by_cases none : m = []
    · exact ⟨[], .inl rfl, by rw [none]; simp⟩
    · exact ⟨gap ++ gap.intercalate m, .inr (List.prefix_append _ _),
        intercalate_cons_of_ne_nil none⟩
  refine ⟨_, _, by rw [whole, rest, framed.trim_append], ?_, ?_⟩
  · rcases hfront with rfl | inner
    · exact .inl rfl
    · exact suffix_dropWhile inner blank
  · rcases hback with rfl | inner
    · exact .inl rfl
    · exact prefix_dropEndWhile inner blank

/-! ## Tight texts -/

/-- Whether the only white space of a text are single blanks within it. -/
structure Tight (s : List Char) : Prop where
  blank : ∀ c ∈ s, isBlank c = true → c = ' '
  single : s.IsChain fun c d => isBlank c = false ∨ isBlank d = false
  head : ∀ c ∈ s.head?, isBlank c = false
  firm : Firm s

theorem oneLine_cons_cons (hc : isBlank c = false) {d : Char} (hd : isBlank d = false)
    (s : List Char) : oneLine (c :: d :: s) = c :: oneLine (d :: s) := by
  have some_word : words (d :: s) ≠ [] := words_ne_nil List.mem_cons_self hd
  obtain ⟨v, l, hl⟩ := List.exists_cons_of_ne_nil some_word
  rw [oneLine, oneLine, words_cons_cons hc hd, hl]
  cases l <;> simp [List.intercalate_cons_cons]

theorem oneLine_cons_space (hc : isBlank c = false) (some_word : words s ≠ []) :
    oneLine (c :: ' ' :: s) = c :: ' ' :: oneLine s := by
  obtain ⟨v, l, hl⟩ := List.exists_cons_of_ne_nil some_word
  have first : words [c] = [[c]] :=
    words_eq_singleton (List.cons_ne_nil c []) (List.forall_mem_singleton.2 hc)
  have apart : words (c :: ' ' :: s) = [c] :: v :: l := by
    rw [← List.singleton_append, words_append_cons rfl, first, hl, List.singleton_append]
  rw [oneLine, oneLine, apart, hl, List.intercalate_cons_cons]
  rfl

namespace Tight

variable {d : Char} {r : List Char}

theorem tail (tight : Tight (c :: d :: r)) (hd : isBlank d = false) : Tight (d :: r) where
  blank := (List.forall_mem_cons.1 tight.blank).2
  single := tight.single.of_cons
  head := by simpa using hd
  firm x hx := tight.firm x (by rwa [List.getLast?_cons_cons])

/-- Behind a blank a tight text goes on with a word. -/
theorem behind_blank (tight : Tight (c :: d :: r)) (hd : isBlank d = true) : r ≠ [] ∧ Tight r := by
  have filled : r ≠ [] := by
    rintro rfl
    simpa [hd] using tight.firm d rfl
  have single := tight.single.of_cons
  refine ⟨filled, ⟨fun x hx => ?_, single.of_cons, fun x hx => ?_, fun x hx => ?_⟩⟩
  · exact tight.blank x (List.mem_cons_of_mem c (List.mem_cons_of_mem d hx))
  · obtain ⟨y, t, rfl⟩ := List.exists_cons_of_ne_nil filled
    obtain rfl : y = x := by simpa using hx
    exact (List.isChain_cons_cons.1 single).1.resolve_left (by simp [hd])
  · refine tight.firm x ?_
    rwa [List.getLast?_cons_cons, List.getLast?_cons_of_ne_nil filled]

/-- A tight text is its words on one line. -/
theorem eq_oneLine {s : List Char} (tight : Tight s) : oneLine s = s := by
  match s with
  | [] => rfl
  | [c] =>
    have solid : ∀ x ∈ [c], isBlank x = false :=
      List.forall_mem_singleton.2 (tight.head c rfl)
    rw [oneLine, words_eq_singleton (List.cons_ne_nil c []) solid, List.intercalate_singleton]
  | c :: d :: r =>
    have hc : isBlank c = false := tight.head c rfl
    cases hd : isBlank d with
    | false => rw [oneLine_cons_cons hc hd, (tight.tail hd).eq_oneLine]
    | true =>
      obtain rfl : d = ' ' := tight.blank d (by simp) hd
      obtain ⟨filled, rest⟩ := tight.behind_blank hd
      have some_word : words r ≠ [] := by
        intro none
        rw [← oneLine_eq_nil_iff, rest.eq_oneLine] at none
        exact filled none
      rw [oneLine_cons_space hc some_word, rest.eq_oneLine]
termination_by s.length

end Tight

end DocIndex.Text
