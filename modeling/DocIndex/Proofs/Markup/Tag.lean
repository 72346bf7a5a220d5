import DocIndex.Markup.Tag
import DocIndex.Proofs.Markup.Pattern

/-!
# Tags that are read and tags that are not

A pattern for tags keeps every text without `<` (`Opens.keeps_text`), and it keeps a tag in which
something else follows the `<` than each of the words that it reads there (`Opens.keeps_tag`): two
texts `clash` if they differ within the length of both. Names that do not clash with what is
written are read: `read?_element` says what an element is read as, with anything behind it.
-/

namespace DocIndex

namespace Text

theorem sameLetter_refl (c : Char) : sameLetter c c = true :=
  beq_self_eq_true _

/-- A table does not move other characters to one that its ranges land before or behind. -/
theorem shift_ne {table : List CodeShift} {c d : Char} (hc : c ≠ d) (hd : d.toNat ≠ 0)
    (far : ∀ s ∈ table, d.toNat < s.range.first + s.distance ∨
      s.range.last + s.distance < d.toNat) : Table.shift table c ≠ d := by
  rw [Table.shift]
  split
  · next s found =>
    have apart := far s (List.mem_of_find?_eq_some found)
    have within := List.find?_some found
    simp only [CodeRange.has, Bool.and_eq_true, decide_eq_true_eq] at within
    rintro rfl
    by_cases valid : (c.toNat + s.distance).toNat.isValidChar
    · rw [Char.ofNat, dif_pos valid] at apart hd
      have code : (Char.ofNatAux _ valid).toNat = (c.toNat + s.distance).toNat := rfl
      omega
    · rw [Char.ofNat, dif_neg valid] at hd
      exact hd rfl
  · exact hc

theorem sameLetter_comm (c d : Char) : sameLetter c d = sameLetter d c :=
  Bool.beq_comm

theorem toLower_of_le {c : Char} (h : 128 ≤ c.toNat) : c.toLower = c := by
  refine dif_neg ?_
  rintro ⟨-, le⟩
  have small : c.toNat ≤ 90 := le
  omega

/-- Case folding lands on no ASCII character from elsewhere but on `k` and `s`. -/
theorem caseFolding_far : ∀ s ∈ Table.caseFolding, 128 ≤ s.range.first + s.distance ∨
    s.range.first = s.range.last ∧
      (s.range.first + s.distance = 107 ∨ s.range.first + s.distance = 115) := by
  decide +kernel

/-- Only a letter and its capital are the same letter, but for `k` and `s`. -/
theorem sameLetter_iff_toLower {c d : Char} (small : d.toLower = d) (ascii : d.toNat < 128)
    (other : d.toNat ≠ 0 ∧ d ≠ 'k' ∧ d ≠ 's') : sameLetter d c = true ↔ c.toLower = d := by
  have folded : fold d = d := by rw [fold, if_pos ascii, small]
  rw [sameLetter, beq_iff_eq, folded, eq_comm, fold]
  split_ifs with low
  · rfl
  · have apart : c ≠ d := by
      rintro rfl
      exact low ascii
    rw [toLower_of_le (by omega)]
    refine iff_of_false (shift_ne apart other.1 fun s hs => ?_) apart
    have k : d.toNat ≠ 107 := fun same => other.2.1 (Char.toNat_inj.1 same)
    have s : d.toNat ≠ 115 := fun same => other.2.2 (Char.toNat_inj.1 same)
    have far := caseFolding_far _ hs
    omega

/-- Only `<` itself is the same letter. -/
theorem sameLetter_lt_iff {c : Char} : sameLetter '<' c = true ↔ c = '<' := by
  rw [sameLetter_iff_toLower (by decide) (by decide) (by decide)]
  by_cases ascii : c.toNat < 128
  · have each : ∀ n < 128, (Char.ofNat n).toLower = '<' ↔ Char.ofNat n = '<' := by decide
    have here := each c.toNat ascii
    rwa [Char.ofNat_toNat] at here
  · rw [toLower_of_le (by omega)]

end Text

namespace Markup

open Text

variable {α : Type} {p : Pattern α} {names : List String} {name : String}
variable {w s t u rest : List Char}

/-! ## Words -/

/-- Whether two texts differ within the length of both, in more than the case of their letters. -/
def clash : List Char → List Char → Bool
  | w :: ws, c :: cs => !sameLetter w c || clash ws cs
  | _, _ => false

theorem word?_append_self (w rest : List Char) : word? w (w ++ rest) = some rest := by
  induction w with
  | nil => cases rest <;> rfl
  | cons c w ih => rw [List.cons_append, word?, if_pos (sameLetter_refl c), ih]

theorem word?_of_clash (h : clash w s = true) (rest : List Char) : word? w (s ++ rest) = none := by
  induction w generalizing s with
  | nil => cases h
  | cons c w ih =>
    cases s with
    | nil => cases h
    | cons d s =>
      rw [clash, Bool.or_eq_true, Bool.not_eq_true'] at h
      rw [List.cons_append, word?]
      split_ifs with same
      · exact ih (h.resolve_left (by simp [same]))
      · rfl

theorem word?_append (w v s : List Char) : word? (w ++ v) s = (word? w s).bind (word? v) := by
  induction w generalizing s with
  | nil => rfl
  | cons c w ih =>
    cases s with
    | nil => rfl
    | cons d s =>
      rw [List.cons_append, word?, word?]
      split_ifs
      · exact ih s
      · rfl

theorem word?_lt_cons {c : Char} (hc : c ≠ '<') (w s : List Char) :
    word? ('<' :: w) (c :: s) = none := by
  rw [word?, if_neg fun same => hc (sameLetter_lt_iff.1 same)]

/-- A word without `<` that is read in front of a `<` is read in the text before it. -/
theorem word?_ne_none_of_append (plain : ∀ c ∈ w, sameLetter c '<' = false)
    (h : word? w (s ++ '<' :: t) ≠ none) : word? w s ≠ none := by
  induction w generalizing s with
  | nil => cases s <;> simp [word?]
  | cons c w ih =>
    rw [List.forall_mem_cons] at plain
    cases s with
    | nil => simp [word?, plain.1] at h
    | cons d s =>
      rw [List.cons_append, word?] at h
      rw [word?]
      split_ifs at h ⊢
      · exact ih plain.2 h
      · exact absurd rfl h

/-! ## Patterns for tags -/

/-- Whether every match starts with `<` and one of the words. -/
def Opens (p : Pattern α) (words : List String) : Prop :=
  ∀ s found, p.read? s = some found → ∃ w ∈ words, ∃ r, word? ('<' :: w.toList) s = some r

namespace Opens

variable {words : List String}

theorem keeps_text (opens : Opens p words) (plain : '<' ∉ s) : p.Keeps s := by
  refine Pattern.keeps_of_forall fun c hc rest => ?_
  by_contra read
  obtain ⟨found, read⟩ := Option.ne_none_iff_exists'.1 read
  obtain ⟨w, -, r, hr⟩ := opens _ _ read
  rw [word?_lt_cons fun same => plain (same ▸ hc)] at hr
  cases hr

theorem keeps_tag (opens : Opens p words) {body : List Char} (plain : '<' ∉ body)
    (other : ∀ w ∈ words, clash w.toList body = true) : p.Keeps ('<' :: body) := by
  refine (opens.keeps_text plain).cons fun rest => ?_
  by_contra read
  obtain ⟨found, read⟩ := Option.ne_none_iff_exists'.1 read
  obtain ⟨w, hw, r, hr⟩ := opens _ _ read
  rw [word?, if_pos (sameLetter_refl '<'), word?_of_clash (other w hw)] at hr
  cases hr

end Opens

theorem exists_word?_of_oneOf? {behind : List Char → Option (List Char)}
    (h : oneOf? names behind s = some rest) :
    ∃ name ∈ names, ∃ r, word? name.toList s = some r := by
  obtain ⟨name, mem, read⟩ := List.exists_of_findSome?_eq_some h
  obtain ⟨r, hr, -⟩ := Option.bind_eq_some_iff.1 read
  exact ⟨name, mem, r, hr⟩

theorem exists_word?_of_opening? {behind : List Char → Option (List Char)}
    (h : opening? names behind s = some rest) :
    ∃ name ∈ names, ∃ r, word? ('<' :: name.toList) s = some r := by
  obtain ⟨t, ht, h⟩ := Option.bind_eq_some_iff.1 h
  obtain ⟨name, mem, r, hr⟩ := exists_word?_of_oneOf? h
  refine ⟨name, mem, r, ?_⟩
  rw [← List.singleton_append, word?_append, ht, Option.bind_some, hr]

theorem opens_lineBreak : Opens lineBreak ["br"] := by
  intro s found h
  obtain ⟨r, hr, -⟩ := Option.bind_eq_some_iff.1 h
  exact ⟨"br", List.mem_singleton_self _, r, hr⟩

theorem opens_openingTag (names : List String) : Opens (openingTag names) names := by
  intro s found h
  obtain ⟨rest, hrest, -⟩ := Option.map_eq_some_iff.1 h
  exact exists_word?_of_opening? hrest

theorem opens_element (loose : Bool) (names : List String) : Opens (element loose names) names := by
  intro s found h
  obtain ⟨rest, hrest, -⟩ := Option.bind_eq_some_iff.1 h
  exact exists_word?_of_opening? hrest

theorem opens_boundary (names : List String) :
    Opens (boundary names) (names ++ names.map ("/" ++ ·)) := by
  intro s found h
  obtain ⟨rest, hrest, -⟩ := Option.map_eq_some_iff.1 h
  obtain ⟨t, ht, hrest⟩ := Option.bind_eq_some_iff.1 hrest
  obtain ⟨name, mem, r, hr⟩ := exists_word?_of_oneOf? hrest
  unfold eitherStart? at ht
  split at ht
  · cases ht
    refine ⟨"/" ++ name, by simp [mem], r, ?_⟩
    have start : word? ['<', '/'] ('<' :: '/' :: t) = some t := word?_append_self ['<', '/'] t
    rw [String.toList_append]
    exact (word?_append ['<', '/'] name.toList _).trans (by rwa [start])
  · cases ht
    refine ⟨name, List.mem_append_left _ mem, r, ?_⟩
    rwa [word?, if_pos (sameLetter_refl '<')]
  · cases ht

theorem opens_link : Opens link ["a"] := by
  intro s found h
  obtain ⟨r, hr, -⟩ := Option.bind_eq_some_iff.1 h
  exact ⟨"a", List.mem_singleton_self _, r, hr⟩

/-! ## What is read -/

/-- Whether a name is the first one of the names that is read off the front of its own tag. -/
def Picks (names : List String) (name : String) : Prop :=
  names.find? (fun other => !clash other.toList (name.toList ++ ['>'])) = some name

instance (names : List String) (name : String) : Decidable (Picks names name) :=
  inferInstanceAs (Decidable (_ = _))

theorem Picks.oneOf? (picks : Picks names name) {behind : List Char → Option (List Char)}
    (ends : ∀ rest, behind ('>' :: rest) = some rest) (rest : List Char) :
    oneOf? names behind (name.toList ++ '>' :: rest) = some rest := by
  induction names with
  | nil => cases picks
  | cons other names ih =>
    rw [Picks, List.find?_cons] at picks
    rw [Markup.oneOf?, List.findSome?_cons]
    cases hc : clash other.toList (name.toList ++ ['>']) with
    | true =>
      have skip := word?_of_clash hc rest
      rw [List.append_assoc, List.singleton_append] at skip
      simp only [hc, Bool.not_true] at picks
      rw [skip]
      exact ih picks
    | false =>
      simp only [hc, Bool.not_false, Option.some.injEq] at picks
      rw [picks, word?_append_self, Option.bind_some, ends]

theorem closeName?_gt (rest : List Char) : closeName? ('>' :: rest) = some rest :=
  rfl

theorem close?_gt (rest : List Char) : close? ('>' :: rest) = some rest :=
  rfl

/-- An opening tag. -/
def startTag (name : String) : List Char :=
  '<' :: (name.toList ++ ['>'])

/-- A closing tag. -/
def endTag (name : String) : List Char :=
  '<' :: '/' :: (name.toList ++ ['>'])

theorem Picks.opening? (picks : Picks names name) {behind : List Char → Option (List Char)}
    (ends : ∀ rest, behind ('>' :: rest) = some rest) (rest : List Char) :
    opening? names behind (startTag name ++ rest) = some rest := by
  have shape : startTag name ++ rest = ['<'] ++ (name.toList ++ '>' :: rest) := by simp [startTag]
  rw [Markup.opening?, shape, word?_append_self, Option.bind_some, picks.oneOf? ends]

theorem Picks.closing? (picks : Picks names name) (rest : List Char) :
    closing? names (endTag name ++ rest) = some rest := by
  have shape : endTag name ++ rest = ['<', '/'] ++ (name.toList ++ '>' :: rest) := by simp [endTag]
  rw [Markup.closing?, shape, word?_append_self, Option.bind_some,
    picks.oneOf? (word?_append_self ['>'])]

theorem closing?_eq_findSome? (names : List String) (s : List Char) :
    closing? names s = names.findSome? fun name => word? (endTag name) s := by
  have whole (name : String) : word? (endTag name) s =
      (word? ['<', '/'] s).bind fun r => (word? name.toList r).bind (word? ['>']) := by
    rw [show endTag name = ['<', '/'] ++ (name.toList ++ ['>']) from rfl, word?_append]
    exact congrArg _ (funext (word?_append _ _))
  simp only [whole, closing?]
  cases word? ['<', '/'] s with
  | none => exact (List.findSome?_eq_none_iff.2 fun _ _ => rfl).symm
  | some r => rfl

/-- What stands behind a `<` does not make a closing tag of what stands before it. -/
theorem closing?_append (plain : ∀ name ∈ names, '<' ∉ name.toList) {c : Char}
    (unclosed : closing? names (c :: s) = none) (t : List Char) :
    closing? names (c :: s ++ '<' :: t) = none := by
  rw [closing?_eq_findSome?, List.findSome?_eq_none_iff] at unclosed ⊢
  intro name mem
  by_contra read
  have unread := unclosed name mem
  rw [List.cons_append, endTag, word?] at read
  rw [endTag, word?] at unread
  split_ifs at read unread with same
  · refine word?_ne_none_of_append (fun d hd => ?_) read unread
    rw [← Bool.not_eq_true, sameLetter_comm, sameLetter_lt_iff]
    rintro rfl
    simp [plain name mem] at hd
  · exact read rfl

/-- The text of an element ends where its closing tag is read. -/
theorem inner?_append (plain : ∀ name ∈ names, '<' ∉ name.toList) (picks : Picks names name)
    (unclosed : inner? names s = none) (rest : List Char) :
    inner? names (s ++ (endTag name ++ rest)) = some (s, rest) := by
  induction s with
  | nil =>
    have closed := picks.closing? rest
    rw [endTag, List.cons_append] at closed
    rw [List.nil_append, endTag, List.cons_append, inner?, closed]
  | cons c s ih =>
    rw [inner?] at unclosed
    split at unclosed
    · cases unclosed
    · next here =>
      have there := closing?_append plain here ('/' :: (name.toList ++ ['>']) ++ rest)
      have inside := ih (Option.map_eq_none_iff.1 unclosed)
      rw [endTag, List.cons_append] at inside ⊢
      rw [List.cons_append] at there ⊢
      rw [inner?, there, inside]
      rfl

theorem inner?_of_plain (plain : '<' ∉ s) : inner? names s = none := by
  induction s with
  | nil => rfl
  | cons c s ih =>
    rw [List.mem_cons, not_or] at plain
    rw [inner?, closing?, word?_lt_cons (Ne.symm plain.1), Option.bind_none, ih plain.2]
    rfl

theorem close?_append (closed : '>' ∉ s) (rest : List Char) :
    close? (s ++ '>' :: rest) = some rest := by
  induction s with
  | nil => rfl
  | cons c s ih =>
    rw [List.mem_cons, not_or] at closed
    rw [List.cons_append, close?, if_neg (Ne.symm closed.1), ih closed.2]

/-! ## What is written in their place -/

section Written

variable {write : Unit → List Char} {loose : Bool} {tag : List Char}

theorem rewrites_openingTag (picks : Picks names name) :
    Rewrites ((openingTag names).replace write) (startTag name) (write ()) := by
  refine Pattern.rewrites_replace fun rest => ?_
  simp [openingTag, picks.opening? closeName?_gt]

theorem eitherStart?_of_ne {c : Char} (hc : c ≠ '/') (s : List Char) :
    eitherStart? ('<' :: c :: s) = some (c :: s) := by
  unfold eitherStart?
  split
  · next same =>
    cases same
    exact absurd rfl hc
  · next same =>
    cases same
    rfl
  · next other => exact absurd rfl (other (c :: s))

theorem rewrites_boundary_startTag (picks : Picks names name)
    (letter : name.toList.head? ≠ some '/') :
    Rewrites ((boundary names).replace write) (startTag name) (write ()) := by
  refine Pattern.rewrites_replace fun rest => ?_
  have start : eitherStart? (startTag name ++ rest) = some (name.toList ++ '>' :: rest) := by
    cases hn : name.toList with
    | nil => simp [startTag, hn, eitherStart?]
    | cons c r =>
      have other : c ≠ '/' := by simpa [hn] using letter
      simp [startTag, hn, eitherStart?_of_ne other]
  simp [boundary, start, picks.oneOf? closeName?_gt]

theorem rewrites_boundary_endTag (picks : Picks names name) :
    Rewrites ((boundary names).replace write) (endTag name) (write ()) := by
  refine Pattern.rewrites_replace fun rest => ?_
  have start : eitherStart? (endTag name ++ rest) = some (name.toList ++ '>' :: rest) := by
    simp [endTag, eitherStart?]
  simp [boundary, start, picks.oneOf? closeName?_gt]

theorem read?_element (opened : ∀ rest,
      opening? names (if loose then close? else closeName?) (tag ++ rest) = some rest)
    (plain : ∀ name ∈ names, '<' ∉ name.toList) (picks : Picks names name)
    (unclosed : inner? names s = none) (rest : List Char) :
    (element loose names).read? (tag ++ (s ++ endTag name) ++ rest) = some (s, rest) := by
  have shape : tag ++ (s ++ endTag name) ++ rest = tag ++ (s ++ (endTag name ++ rest)) := by simp
  rw [shape]
  refine (Option.bind_eq_some_iff.2 ⟨_, opened _, ?_⟩)
  exact inner?_append plain picks unclosed rest

end Written

end Markup

end DocIndex
