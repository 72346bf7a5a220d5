/-!
# Patterns

A `Pattern` recognises something at the start of a text and takes at least one character. `scan`
goes through a text from left to right and takes every match that starts where the one before ended;
`replace` writes something else in the place of each match.
-/

namespace DocIndex

/-- Something to recognise at the start of a text. -/
structure Pattern (α : Type) where
  /-- What a text that starts with a match says, and the text behind the match. -/
  read? : List Char → Option (α × List Char)
  /-- A match is not empty. -/
  shorter : ∀ {s a rest}, read? s = some (a, rest) → rest.length < s.length

/-- A part of a text that was searched: a character outside all matches, or a match. -/
inductive Piece (α : Type) where
  | plain (c : Char)
  | found (value : α)
  deriving DecidableEq, Repr

/-- What a match says. -/
def Piece.found? {α : Type} : Piece α → Option α
  | plain _ => none
  | found a => some a

/-- The characters of a piece, where `write` gives those of a match. -/
def Piece.text {α : Type} (write : α → List Char) : Piece α → List Char
  | plain c => [c]
  | found a => write a

namespace Pattern

variable {α : Type}

/-- The matches of a text and the characters outside them, from left to right. -/
def scan (p : Pattern α) : List Char → List (Piece α)
  | [] => []
  | c :: r =>
    match _h : p.read? (c :: r) with
    | some (a, rest) => .found a :: p.scan rest
    | none => .plain c :: p.scan r
termination_by s => s.length
decreasing_by
  · exact p.shorter _h
  · exact Nat.lt_succ_self _

/-- The matches of a text. -/
def all (p : Pattern α) (s : List Char) : List α :=
  (p.scan s).filterMap Piece.found?

/-- The first match of a text. -/
def first? (p : Pattern α) (s : List Char) : Option α :=
  (p.scan s).findSome? Piece.found?

/-- The text with something else in the place of each match. -/
def replace (p : Pattern α) (write : α → List Char) (s : List Char) : List Char :=
  (p.scan s).flatMap (Piece.text write)

/-- The text without the matches. -/
def remove (p : Pattern α) (s : List Char) : List Char :=
  p.replace (fun _ => []) s

end Pattern

end DocIndex
