import DocIndex.Markup.Pattern

/-!
# Entities

`decode` puts a character in the place of each HTML entity that is known: the named ones for markup
characters, quotes and the hard space, which becomes an ordinary one, and those that give a code
point in decimal or hexadecimal digits. All others stay as they are written.
-/

namespace DocIndex.Markup

/-- Whether the character is a decimal digit. -/
def isDecimal (c : Char) : Bool :=
  c.isDigit

/-- Whether the character is a hexadecimal digit. -/
def isHexadecimal (c : Char) : Bool :=
  c.isDigit || ('a' ≤ c && c ≤ 'f') || ('A' ≤ c && c ≤ 'F')

/-- The value of a hexadecimal digit. -/
def digitValue (c : Char) : Nat :=
  if c.isDigit then c.toNat - '0'.toNat
  else if c.isLower then c.toNat - 'a'.toNat + 10
  else c.toNat - 'A'.toNat + 10

/-- The number that digits of a base write. -/
def number (base : Nat) (digits : List Char) : Nat :=
  digits.foldl (fun n c => n * base + digitValue c) 0

/-- The character with a code point, if there is one. -/
def charOf? (code : Nat) : Option Char :=
  if code.isValidChar then some (Char.ofNat code) else none

/-- The character that a name stands for. -/
def named? (name : List Char) : Option Char :=
  if name = "lt".toList then some '<'
  else if name = "gt".toList then some '>'
  else if name = "amp".toList then some '&'
  else if name = "quot".toList then some '"'
  else if name = "apos".toList then some '\''
  else if name = "nbsp".toList then some ' '
  else none

/-- Reads the characters of one kind up to a semicolon, of which there has to be one. -/
def upToSemicolon? (kind : Char → Bool) (s : List Char) : Option (List Char × List Char) :=
  match s.takeWhile kind, s.dropWhile kind with
  | [], _ => none
  | body, ';' :: rest => some (body, rest)
  | _, _ => none

theorem length_lt_of_upToSemicolon? {kind : Char → Bool} {s body rest : List Char}
    (h : upToSemicolon? kind s = some (body, rest)) : rest.length < s.length := by
  unfold upToSemicolon? at h
  split at h
  · cases h
  · rename_i hd _
    cases h
    have := (List.dropWhile_suffix kind (l := s)).length_le
    rw [hd, List.length_cons] at this
    omega
  · cases h

/-- Reads an entity behind its `&`: the characters that it stands for, and what follows it. -/
def entityBody? (s : List Char) : Option (List Char × List Char) :=
  match s with
  | '#' :: 'x' :: r => numeric ['x'] 16 (upToSemicolon? isHexadecimal r)
  | '#' :: 'X' :: r => numeric ['X'] 16 (upToSemicolon? isHexadecimal r)
  | '#' :: r => numeric [] 10 (upToSemicolon? isDecimal r)
  | r => (upToSemicolon? Char.isAlpha r).map fun (name, rest) =>
    match named? name with
    | some c => ([c], rest)
    | none => ('&' :: name ++ [';'], rest)
where
  /-- The character with a written code point, or the entity as it is written. -/
  numeric (mark : List Char) (base : Nat) (read : Option (List Char × List Char)) :
      Option (List Char × List Char) :=
    read.map fun (digits, rest) =>
      match charOf? (number base digits) with
      | some c => ([c], rest)
      | none => ('&' :: '#' :: mark ++ digits ++ [';'], rest)

theorem snd_of_numeric {mark : List Char} {base : Nat} {read : Option (List Char × List Char)}
    {a rest : List Char} (h : entityBody?.numeric mark base read = some (a, rest)) :
    ∃ body, read = some (body, rest) := by
  obtain ⟨⟨digits, r⟩, hr, h⟩ := Option.map_eq_some_iff.1 h
  dsimp only at h
  refine ⟨digits, ?_⟩
  split at h <;> cases h <;> exact hr

theorem length_lt_of_entityBody? {s a rest : List Char} (h : entityBody? s = some (a, rest)) :
    rest.length < s.length := by
  unfold entityBody? at h
  split at h
  · obtain ⟨_, hr⟩ := snd_of_numeric h
    exact Nat.lt_succ_of_lt (Nat.lt_succ_of_lt (length_lt_of_upToSemicolon? hr))
  · obtain ⟨_, hr⟩ := snd_of_numeric h
    exact Nat.lt_succ_of_lt (Nat.lt_succ_of_lt (length_lt_of_upToSemicolon? hr))
  · obtain ⟨_, hr⟩ := snd_of_numeric h
    exact Nat.lt_succ_of_lt (length_lt_of_upToSemicolon? hr)
  · obtain ⟨⟨name, r⟩, hr, h⟩ := Option.map_eq_some_iff.1 h
    dsimp only at h
    split at h <;> cases h <;> exact length_lt_of_upToSemicolon? hr

/-- An entity, as the characters that it stands for. -/
def entity : Pattern (List Char) where
  read?
    | '&' :: r => entityBody? r
    | _ => none
  shorter := by
    intro s _ rest h
    split at h
    · exact Nat.lt_succ_of_lt (length_lt_of_entityBody? h)
    · cases h

/-- The text with characters in the place of its entities. -/
def decode (s : List Char) : List Char :=
  entity.replace id s

example : decode "a &lt;b&#62; &#x41;&nope;&#xD800;&amp;lt;".toList =
    "a <b> A&nope;&#xD800;&lt;".toList := by decide +kernel

end DocIndex.Markup
