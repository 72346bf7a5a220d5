import DocIndex.Bytes.Utf8
import DocIndex.Json.Basic

/-!
# The tokens of a JSON text

A JSON text is read from bytes. `Token.next` reads one token, and `Token.all?` reads all of them
with white space between. Bytes that are not UTF-8 are only allowed inside string literals, where
the token then denotes no text.
-/

namespace DocIndex.Json

/-- The smallest pieces of a JSON text that have a meaning. -/
inductive Token where
  | openArray
  | closeArray
  | openObject
  | closeObject
  | comma
  | colon
  | null
  | bool (value : Bool)
  | number (literal : String)
  | string (text : Text)

/-! ## Strings -/

/-- A piece of a string literal: a byte that stands for itself, or an escaped UTF-16 unit. -/
inductive Piece where
  | byte (b : UInt8)
  | escaped (unit : Nat)

/-- The value of a hexadecimal digit. -/
def hexDigit? (b : UInt8) : Option Nat :=
  let n := b.toNat
  if 0x30 ≤ n ∧ n ≤ 0x39 then some (n - 0x30)
  else if 0x41 ≤ n ∧ n ≤ 0x46 then some (n - 0x41 + 10)
  else if 0x61 ≤ n ∧ n ≤ 0x66 then some (n - 0x61 + 10)
  else none

/-- The value of four hexadecimal digits. -/
def hexUnit? (a b c d : UInt8) : Option Nat := do
  return (((← hexDigit? a) * 16 + (← hexDigit? b)) * 16 + (← hexDigit? c)) * 16 + (← hexDigit? d)

/-- The unit that a backslash and one more byte stand for. -/
def shortEscape? (b : UInt8) : Option Nat :=
  match b.toNat with
  | 0x22 => some 0x22
  | 0x5C => some 0x5C
  | 0x2F => some 0x2F
  | 0x62 => some 8
  | 0x66 => some 12
  | 0x6E => some 10
  | 0x72 => some 13
  | 0x74 => some 9
  | _ => none

/-- Reads the pieces of a string literal up to its closing quote, behind those in `read`, which is
backwards. -/
def piecesAfter (read : List Piece) : List UInt8 → Option (List Piece × List UInt8)
  | 0x22 :: r => some (read.reverse, r)
  | 0x5C :: 0x75 :: a :: b :: c :: d :: r => do
    piecesAfter (.escaped (← hexUnit? a b c d) :: read) r
  | 0x5C :: e :: r => do piecesAfter (.escaped (← shortEscape? e) :: read) r
  | b :: r => if b < 0x20 then none else piecesAfter (.byte b :: read) r
  | [] => none

/-- Whether the unit is the first of a surrogate pair. -/
def isHighSurrogate (unit : Nat) : Bool :=
  0xD800 ≤ unit && unit < 0xDC00

/-- Whether the unit is the second of a surrogate pair. -/
def isLowSurrogate (unit : Nat) : Bool :=
  0xDC00 ≤ unit && unit < 0xE000

/-- The bytes that the pieces stand for, behind those in `read`, which is backwards. Surrogates have
to come in pairs. -/
def bytesAfter (read : List UInt8) : List Piece → Option (List UInt8)
  | [] => some read.reverse
  | .byte b :: r => bytesAfter (b :: read) r
  | .escaped unit :: r =>
    if isHighSurrogate unit then
      match r with
      | .escaped low :: r =>
        if isLowSurrogate low then
          let code := (unit - 0xD800) * 0x400 + (low - 0xDC00) + 0x10000
          bytesAfter ((Utf8.encodeChar (Char.ofNat code)).reverse ++ read) r
        else none
      | _ => none
    else if isLowSurrogate unit then none
    else bytesAfter ((Utf8.encodeChar (Char.ofNat unit)).reverse ++ read) r

/-- The text that the pieces of a string literal denote. -/
def textOf (pieces : List Piece) : Text := do
  Utf8.decode? (← bytesAfter [] pieces)

/-! ## Numbers -/

/-- Whether the characters are one digit or more. -/
def isDigits (s : List Char) : Bool :=
  !s.isEmpty && s.all Char.isDigit

/-- Whether the characters may follow the integer part and the fraction of a number. -/
def isExponent : List Char → Bool
  | [] => true
  | e :: '+' :: r => (e == 'e' || e == 'E') && isDigits r
  | e :: '-' :: r => (e == 'e' || e == 'E') && isDigits r
  | e :: r => (e == 'e' || e == 'E') && isDigits r

/-- Whether the characters may follow the integer part of a number. -/
def isFraction : List Char → Bool
  | '.' :: r => isDigits (r.takeWhile Char.isDigit) && isExponent (r.dropWhile Char.isDigit)
  | r => isExponent r

/-- Whether the characters are a number without a sign. -/
def isUnsigned : List Char → Bool
  | '0' :: r => isFraction r
  | c :: r => c.isDigit && isFraction (r.dropWhile Char.isDigit)
  | [] => false

/-- Whether the characters are a number. -/
def isNumber : List Char → Bool
  | '-' :: r => isUnsigned r
  | r => isUnsigned r

/-- Whether the byte can be part of a number. -/
def inNumber (b : UInt8) : Bool :=
  (0x30 ≤ b && b ≤ 0x39) || b == 0x2B || b == 0x2D || b == 0x2E || b == 0x45 || b == 0x65

/-! ## Tokens -/

/-- Whether the byte is white space between tokens. -/
def isSpace (b : UInt8) : Bool :=
  b == 0x20 || b == 0x09 || b == 0x0A || b == 0x0D

/-- Reads the token that starts with the byte `b`; the rest is what stands behind it. -/
def Token.next (b : UInt8) (r : List UInt8) : Option (Token × List UInt8) :=
  match b, r with
  | 0x5B, r => some (.openArray, r)
  | 0x5D, r => some (.closeArray, r)
  | 0x7B, r => some (.openObject, r)
  | 0x7D, r => some (.closeObject, r)
  | 0x2C, r => some (.comma, r)
  | 0x3A, r => some (.colon, r)
  | 0x6E, 0x75 :: 0x6C :: 0x6C :: r => some (.null, r)
  | 0x74, 0x72 :: 0x75 :: 0x65 :: r => some (.bool true, r)
  | 0x66, 0x61 :: 0x6C :: 0x73 :: 0x65 :: r => some (.bool false, r)
  | 0x22, r => do
    let (pieces, rest) ← piecesAfter [] r
    some (.string (textOf pieces), rest)
  | b, r =>
    let literal := (b :: r.takeWhile inNumber).map fun b => Char.ofNat b.toNat
    if isNumber literal then some (.number (String.ofList literal), r.dropWhile inNumber) else none

theorem length_piecesAfter_le {read : List Piece} {s : List UInt8} {out}
    (h : piecesAfter read s = some out) : out.2.length ≤ s.length := by
  fun_induction piecesAfter read s with
  | case1 read r => cases h; simp
  | case2 read a b c d r ih =>
    obtain ⟨u, -, hu⟩ := Option.bind_eq_some_iff.1 h
    exact Nat.le_trans (ih u hu) (by simp; omega)
  | case3 read e r _ ih =>
    obtain ⟨u, -, hu⟩ := Option.bind_eq_some_iff.1 h
    exact Nat.le_trans (ih u hu) (by simp; omega)
  | case4 => cases h
  | case5 read b r _ _ _ _ ih => exact Nat.le_succ_of_le (ih h)
  | case6 => cases h

theorem Token.length_next_le {b : UInt8} {r : List UInt8} {out}
    (h : Token.next b r = some out) : out.2.length ≤ r.length := by
  unfold Token.next at h
  split at h
  case h_10 =>
    obtain ⟨p, hp, hq⟩ := Option.bind_eq_some_iff.1 h
    cases hq
    exact length_piecesAfter_le hp
  case h_11 =>
    dsimp only at h
    split at h
    · cases h
      exact (List.dropWhile_suffix _).length_le
    · cases h
  all_goals cases h; simp <;> omega

/-- Reads the tokens of a text behind those in `read`, which is backwards. -/
def Token.allAfter? (read : List Token) : List UInt8 → Option (List Token)
  | [] => some read.reverse
  | b :: r =>
    if isSpace b then allAfter? read r
    else
      match _h : Token.next b r with
      | none => none
      | some (token, rest) => allAfter? (token :: read) rest
termination_by s => s.length
decreasing_by
  · simp
  · exact Nat.lt_succ_of_le (Token.length_next_le _h)

/-- The tokens of a text. -/
def Token.all? (s : List UInt8) : Option (List Token) :=
  Token.allAfter? [] s

end DocIndex.Json
