import DocIndex.Markup.Pattern
import DocIndex.Text.Blank
import DocIndex.Text.LetterCase

/-!
# Tags

The patterns for HTML tags and elements. Names of tags are read in any case. A tag ends at the next
`>`. An element reaches from its opening tag to the first closing tag, so elements of one name do
not nest.
-/

namespace DocIndex.Markup

open Text

/-! ## Parts of tags -/

/-- What stands behind a word in any case. -/
def word? (word s : List Char) : Option (List Char) :=
  match word, s with
  | [], s => some s
  | _ :: _, [] => none
  | w :: ws, c :: cs => if sameLetter w c then word? ws cs else none

/-- What stands behind the next `>`. -/
def close? : List Char → Option (List Char)
  | [] => none
  | c :: r => if c = '>' then some r else close? r

/-- What stands behind the next `>`, if it comes at once or behind white space. -/
def closeName? : List Char → Option (List Char)
  | [] => none
  | c :: r => if c = '>' then some r else if isBlank c then close? r else none

/-- What stands behind one of the names, as `behind` sees it. -/
def oneOf? (names : List String) (behind : List Char → Option (List Char)) (s : List Char) :
    Option (List Char) :=
  names.findSome? fun name => (word? name.toList s).bind behind

/-- What stands behind an opening tag with one of the names, whose end `behind` sees. -/
def opening? (names : List String) (behind : List Char → Option (List Char)) (s : List Char) :
    Option (List Char) :=
  (word? ['<'] s).bind (oneOf? names behind)

/-- What stands behind a closing tag with one of the names. -/
def closing? (names : List String) (s : List Char) : Option (List Char) :=
  (word? ['<', '/'] s).bind (oneOf? names (word? ['>']))

/-- What stands behind the start of an opening or closing tag. -/
def eitherStart? : List Char → Option (List Char)
  | '<' :: '/' :: r => some r
  | '<' :: r => some r
  | _ => none

/-- The text in front of the first closing tag with one of the names, and what stands behind it. -/
def inner? (names : List String) : List Char → Option (List Char × List Char)
  | [] => none
  | c :: r =>
    match closing? names (c :: r) with
    | some rest => some ([], rest)
    | none => (inner? names r).map fun (inner, rest) => (c :: inner, rest)

/-! ## How far they reach -/

theorem length_of_word? {word s rest : List Char} (h : word? word s = some rest) :
    rest.length + word.length = s.length := by
  induction word generalizing s with
  | nil => cases h; simp
  | cons w ws ih =>
    cases s with
    | nil => cases h
    | cons c cs =>
      rw [word?] at h
      split at h
      · have := ih h
        simp only [List.length_cons]
        omega
      · cases h

theorem length_lt_of_close? {s rest : List Char} (h : close? s = some rest) :
    rest.length < s.length := by
  induction s with
  | nil => cases h
  | cons c r ih =>
    rw [close?] at h
    split at h
    · cases h; simp
    · exact Nat.lt_succ_of_lt (ih h)

theorem length_lt_of_closeName? {s rest : List Char} (h : closeName? s = some rest) :
    rest.length < s.length := by
  cases s with
  | nil => cases h
  | cons c r =>
    rw [closeName?] at h
    split at h
    · cases h; simp
    · split at h
      · exact Nat.lt_succ_of_lt (length_lt_of_close? h)
      · cases h

theorem length_le_of_oneOf? {names : List String} {behind : List Char → Option (List Char)}
    (hb : ∀ {s rest}, behind s = some rest → rest.length < s.length) {s rest : List Char}
    (h : oneOf? names behind s = some rest) : rest.length ≤ s.length := by
  obtain ⟨name, -, hn⟩ := List.exists_of_findSome?_eq_some h
  obtain ⟨r, hr, hrest⟩ := Option.bind_eq_some_iff.1 hn
  have := length_of_word? hr
  have := hb hrest
  omega

theorem length_lt_of_opening? {names : List String} {behind : List Char → Option (List Char)}
    (hb : ∀ {s rest}, behind s = some rest → rest.length < s.length) {s rest : List Char}
    (h : opening? names behind s = some rest) : rest.length < s.length := by
  obtain ⟨r, hr, hrest⟩ := Option.bind_eq_some_iff.1 h
  have := length_of_word? hr
  have := length_le_of_oneOf? hb hrest
  simp only [List.length_cons, List.length_nil] at *
  omega

theorem length_lt_of_closing? {names : List String} {s rest : List Char}
    (h : closing? names s = some rest) : rest.length < s.length := by
  obtain ⟨r, hr, hrest⟩ := Option.bind_eq_some_iff.1 h
  have := length_of_word? hr
  have hb : ∀ {s rest : List Char}, word? ['>'] s = some rest → rest.length < s.length := by
    intro s rest hs
    have := length_of_word? hs
    simp at this
    omega
  have := length_le_of_oneOf? hb hrest
  simp only [List.length_cons, List.length_nil] at *
  omega

theorem length_lt_of_eitherStart? {s rest : List Char} (h : eitherStart? s = some rest) :
    rest.length < s.length := by
  unfold eitherStart? at h
  split at h
  · cases h
    exact Nat.lt_succ_of_lt (Nat.lt_succ_self _)
  · cases h
    exact Nat.lt_succ_self _
  · cases h

theorem length_lt_of_inner? {names : List String} {s inner rest : List Char}
    (h : inner? names s = some (inner, rest)) : rest.length < s.length := by
  induction s generalizing inner with
  | nil => cases h
  | cons c r ih =>
    rw [inner?] at h
    split at h
    · rename_i hc
      cases h
      exact length_lt_of_closing? hc
    · obtain ⟨⟨i, t⟩, hi, ht⟩ := Option.map_eq_some_iff.1 h
      cases ht
      exact Nat.lt_succ_of_lt (ih hi)

/-! ## Patterns -/

/-- Any tag: `<`, something, and the next `>`. -/
def anyTag : Pattern Unit where
  read?
    | '<' :: c :: r => if c = '>' then none else (close? r).map ((), ·)
    | _ => none
  shorter := by
    intro s _ rest h
    split at h
    · split at h
      · cases h
      · obtain ⟨r, hr, ht⟩ := Option.map_eq_some_iff.1 h
        cases ht
        have := length_lt_of_close? hr
        simp only [List.length_cons]
        omega
    · cases h

/-- A line break: `br`, white space and a slash or not, and `>`. -/
def lineBreak : Pattern Unit where
  read? s := do
    let r ← word? "<br".toList s
    match r.dropWhile isBlank with
    | '>' :: rest | '/' :: '>' :: rest => some ((), rest)
    | _ => none
  shorter := by
    intro s _ rest h
    obtain ⟨r, hr, ht⟩ := Option.bind_eq_some_iff.1 h
    have hlen := length_of_word? hr
    have hdrop := (List.dropWhile_suffix isBlank (l := r)).length_le
    have hpos : "<br".toList.length = 3 := by decide
    split at ht
    · rename_i hd
      cases ht
      rw [hd] at hdrop
      simp only [List.length_cons] at hdrop
      omega
    · rename_i hd
      cases ht
      rw [hd] at hdrop
      simp only [List.length_cons] at hdrop
      omega
    · cases ht

/-- An opening tag with one of the names. -/
def openingTag (names : List String) : Pattern Unit where
  read? s := (opening? names closeName? s).map ((), ·)
  shorter := by
    intro s _ rest h
    obtain ⟨r, hr, ht⟩ := Option.map_eq_some_iff.1 h
    cases ht
    exact length_lt_of_opening? length_lt_of_closeName? hr

/-- An opening or closing tag with one of the names. White space and more may follow the name of
either. -/
def boundary (names : List String) : Pattern Unit where
  read? s := ((eitherStart? s).bind (oneOf? names closeName?)).map ((), ·)
  shorter := by
    intro s _ rest h
    obtain ⟨t, ht, hu⟩ := Option.map_eq_some_iff.1 h
    cases hu
    obtain ⟨r, hr, hrest⟩ := Option.bind_eq_some_iff.1 ht
    exact Nat.lt_of_le_of_lt (length_le_of_oneOf? length_lt_of_closeName? hrest)
      (length_lt_of_eitherStart? hr)

/-- The element with one of the names, as the text inside it. Anything may stand between the name
and the end of the opening tag if it is `loose`; if not, white space has to come first. -/
def element (loose : Bool) (names : List String) : Pattern (List Char) where
  read? s := do inner? names (← opening? names (if loose then close? else closeName?) s)
  shorter := by
    intro s _ rest h
    obtain ⟨r, hr, ht⟩ := Option.bind_eq_some_iff.1 h
    have hopen : r.length < s.length := by
      cases loose
      · exact length_lt_of_opening? length_lt_of_closeName? hr
      · exact length_lt_of_opening? length_lt_of_close? hr
    exact Nat.lt_trans (length_lt_of_inner? ht) hopen

/-! ## Links -/

/-- A link: where it leads, and the text inside it. -/
structure Link where
  target : List Char
  label : List Char

/-- What stands behind each `href="` in front of the next `>`, the last one first. -/
def targets : List Char → List (List Char)
  | [] => []
  | c :: r =>
    if c = '>' then []
    else
      match word? "href=\"".toList (c :: r) with
      | some rest => targets r ++ [rest]
      | none => targets r

/-- The link whose target starts the text, and what stands behind it. -/
def linkFrom? (s : List Char) : Option (Link × List Char) :=
  match s.dropWhile (· != '"') with
  | _ :: r => do
    let (label, rest) ← inner? ["a"] (← close? r)
    some (⟨s.takeWhile (· != '"'), label⟩, rest)
  | [] => none

theorem length_le_of_mem_targets {s t : List Char} (h : t ∈ targets s) : t.length ≤ s.length := by
  induction s with
  | nil => cases h
  | cons c r ih =>
    rw [targets] at h
    split at h
    · cases h
    · split at h
      · rename_i rest hw
        rcases List.mem_append.1 h with h | h
        · exact Nat.le_succ_of_le (ih h)
        · cases List.mem_singleton.1 h
          have := length_of_word? hw
          omega
      · exact Nat.le_succ_of_le (ih h)

theorem length_lt_of_linkFrom? {s rest : List Char} {l : Link}
    (h : linkFrom? s = some (l, rest)) : rest.length < s.length := by
  unfold linkFrom? at h
  split at h
  · rename_i q r hd
    obtain ⟨t, ht, h⟩ := Option.bind_eq_some_iff.1 h
    obtain ⟨⟨label, u⟩, hu, h⟩ := Option.bind_eq_some_iff.1 h
    cases h
    have hdrop := (List.dropWhile_suffix (· != '"') (l := s)).length_le
    rw [hd, List.length_cons] at hdrop
    have := length_lt_of_close? ht
    have := length_lt_of_inner? hu
    omega
  · cases h

/-- Whether the tag that the text starts within ends, with a closing tag of a link behind it. -/
def tagOfLink (s : List Char) : Bool :=
  ((close? s).bind (inner? ["a"])).isSome

/-- A link element. Of several targets in its opening tag the last one that a whole link follows is
taken. Targets are only looked for if there is a closing tag to be found. -/
def link : Pattern Link where
  read? s := do
    match ← word? "<a".toList s with
    | c :: r => if isBlank c && tagOfLink r then (targets r).findSome? linkFrom? else none
    | [] => none
  shorter := by
    intro s _ rest h
    obtain ⟨r, hr, h⟩ := Option.bind_eq_some_iff.1 h
    split at h
    · rename_i c r
      split at h
      · obtain ⟨t, ht, hl⟩ := List.exists_of_findSome?_eq_some h
        have hlen := length_of_word? hr
        have hpos : "<a".toList.length = 2 := by decide
        have := length_le_of_mem_targets ht
        have := length_lt_of_linkFrom? hl
        simp only [List.length_cons] at hlen
        omega
      · cases h
    · cases h

end DocIndex.Markup
