/-!
# Texts inside texts

`occursIn` says whether one text stands anywhere inside another, and `through` cuts a text right
behind the first place where another stands.
-/

namespace DocIndex.Text

/-- What is left of `s` behind `front`, if `s` starts with it. -/
def stripFront (front s : List Char) : Option (List Char) :=
  match front, s with
  | [], s => some s
  | _ :: _, [] => none
  | f :: fs, c :: cs => if f = c then stripFront fs cs else none

/-- Whether `piece` stands somewhere in the text. -/
def occursIn (piece : List Char) : List Char → Bool
  | [] => piece.isEmpty
  | c :: r => piece.isPrefixOf (c :: r) || occursIn piece r

/-- The text up to the end of the first `piece` in it, if there is one. -/
def through (piece : List Char) : List Char → Option (List Char)
  | [] => if piece.isEmpty then some [] else none
  | c :: r => if piece.isPrefixOf (c :: r) then some piece else (through piece r).map (c :: ·)

theorem stripFront_eq_some_iff {front s rest : List Char} :
    stripFront front s = some rest ↔ s = front ++ rest := by
  induction front generalizing s with
  | nil => simp [stripFront]
  | cons f fs ih =>
    cases s with
    | nil => simp [stripFront]
    | cons c cs =>
      by_cases h : f = c
      · simp [stripFront, h, ih]
      · simp only [stripFront, if_neg h, List.cons_append, List.cons.injEq]
        exact ⟨nofun, fun e => absurd e.1.symm h⟩

theorem occursIn_iff {piece s : List Char} : occursIn piece s = true ↔ piece <:+: s := by
  induction s with
  | nil => simp [occursIn]
  | cons c r ih => simp [occursIn, ih, List.infix_cons_iff]

end DocIndex.Text
