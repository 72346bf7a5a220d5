import DocIndex.Markup.Pattern
import DocIndex.Text.Blank
import DocIndex.Text.LetterCase
import DocIndex.Text.Substring

/-!
# Highlighting

The words of a query, cut at every bar, are looked for in a text as they stand. `Highlight.pattern?`
is the pattern for them, and `Highlight.spans` says where a text matches, in bytes.
-/

namespace DocIndex.Highlight

/-- The texts that a query looks for, in order. Signs in front of them are dropped. -/
def alternatives (query : String) : List (List Char) :=
  ((Text.words query.toList).flatMap fun word =>
    (word.splitOn '|').map fun piece => piece.dropWhile (· == '@')).filter (!·.isEmpty)

/-- What stands behind a word, where letters are compared in spite of their case or not, and the
characters in the place of the word. -/
def word? (ignoreCase : Bool) : (word s : List Char) → Option (List Char × List Char)
  | [], s => some ([], s)
  | _ :: _, [] => none
  | w :: ws, c :: cs =>
    if w = c || (ignoreCase && Text.sameLetter w c) then
      (word? ignoreCase ws cs).map fun (found, rest) => (c :: found, rest)
    else none

theorem length_of_word? {ignoreCase : Bool} {word s found rest : List Char}
    (h : word? ignoreCase word s = some (found, rest)) :
    rest.length + word.length = s.length := by
  induction word generalizing s found with
  | nil => cases h; simp
  | cons w ws ih =>
    cases s with
    | nil => cases h
    | cons c cs =>
      rw [word?] at h
      split at h
      · obtain ⟨⟨f, r⟩, hr, h⟩ := Option.map_eq_some_iff.1 h
        cases h
        have := ih hr
        simp only [List.length_cons]
        omega
      · cases h

/-- One of some words, the first of them that fits. -/
def anyOf (ignoreCase : Bool) (words : List (List Char)) : Pattern (List Char) where
  read? s := (words.filter (!·.isEmpty)).findSome? fun word => word? ignoreCase word s
  shorter := by
    intro s _ rest h
    obtain ⟨word, hm, hw⟩ := List.exists_of_findSome?_eq_some h
    have hpos : 0 < word.length := by
      have := (List.mem_filter.1 hm).2
      cases word <;> simp_all
    have := length_of_word? hw
    omega

/-- The pattern for a query; one that names nothing has none. -/
def pattern? (query : String) (ignoreCase : Bool) : Option (Pattern (List Char)) :=
  match alternatives query with
  | [] => none
  | words => some (anyOf ignoreCase words)

/-- A place in a text, from one byte up to another, and what stands there. -/
structure Span where
  first : Nat
  last : Nat
  text : String
  deriving DecidableEq, Repr

/-- The number of bytes of a text. -/
def byteLength : List Char → Nat
  | [] => 0
  | c :: s => c.utf8Size + byteLength s

/-- Where the matches are, if the pieces start at the given byte. -/
def spansFrom (start : Nat) : List (Piece (List Char)) → List Span
  | [] => []
  | .plain c :: rest => spansFrom (start + c.utf8Size) rest
  | .found s :: rest =>
    let stop := start + byteLength s
    ⟨start, stop, String.ofList s⟩ :: spansFrom stop rest

/-- Where a text matches. -/
def spans (p : Pattern (List Char)) (text : String) : List Span :=
  spansFrom 0 (p.scan text.toList)

/-- The text with `before` and `after` around every match of the query. -/
def mark (before after query : String) (ignoreCase : Bool) (text : String) : String :=
  match pattern? query ignoreCase with
  | none => text
  | some p =>
    String.ofList (p.replace (fun s => before.toList ++ s ++ after.toList) text.toList)

end DocIndex.Highlight
