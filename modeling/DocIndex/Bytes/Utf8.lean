/-!
# UTF-8

`encode` writes a text as bytes. `next` reads the first character of some bytes, or finds that they
start with no character and how far the damage reaches. `decode?` reads a whole text and fails on
damage, and `decodeLossy` puts a replacement character in the place of each damaged piece.
-/

namespace DocIndex.Utf8

/-- The bytes of a character. -/
abbrev encodeChar (c : Char) : List UInt8 :=
  String.utf8EncodeChar c

/-- The bytes of a text. -/
def encode (s : String) : List UInt8 :=
  s.toList.flatMap encodeChar

/-- What the first byte of a character says: its share of the code point, how many bytes follow,
and the range of the first of them. -/
structure Lead where
  share : Nat
  more : Nat
  low : Nat
  high : Nat

/-- The meaning of a first byte. The ranges keep out overlong forms, surrogates and code points
that are too large. -/
def lead? (b : UInt8) : Option Lead :=
  let n := b.toNat
  if n < 0x80 then some ⟨n, 0, 0x80, 0xBF⟩
  else if n < 0xC2 then none
  else if n < 0xE0 then some ⟨n - 0xC0, 1, 0x80, 0xBF⟩
  else if n = 0xE0 then some ⟨0, 2, 0xA0, 0xBF⟩
  else if n = 0xED then some ⟨0xD, 2, 0x80, 0x9F⟩
  else if n < 0xF0 then some ⟨n - 0xE0, 2, 0x80, 0xBF⟩
  else if n = 0xF0 then some ⟨0, 3, 0x90, 0xBF⟩
  else if n < 0xF4 then some ⟨n - 0xF0, 3, 0x80, 0xBF⟩
  else if n = 0xF4 then some ⟨4, 3, 0x80, 0x8F⟩
  else none

/-- Reads `more` further bytes, the first of them between `low` and `high`. The result is the code
point if all are there, and the bytes behind those that were. -/
def continueWith (code more low high : Nat) : List UInt8 → Option Nat × List UInt8
  | [] => (if more = 0 then some code else none, [])
  | b :: r =>
    if more = 0 then (some code, b :: r)
    else if low ≤ b.toNat ∧ b.toNat ≤ high then
      continueWith (code * 64 + (b.toNat - 0x80)) (more - 1) 0x80 0xBF r
    else (none, b :: r)

/-- Reads the character that starts with the byte `b`: none if the bytes are damaged there. The
second part is what is left behind the character or the damage. -/
def next (b : UInt8) (r : List UInt8) : Option Char × List UInt8 :=
  match lead? b with
  | none => (none, r)
  | some l =>
    let (code, rest) := continueWith l.share l.more l.low l.high r
    (code.map Char.ofNat, rest)

theorem length_continueWith_le (code more low high : Nat) (r : List UInt8) :
    (continueWith code more low high r).2.length ≤ r.length := by
  induction r generalizing code more low high with
  | nil => simp [continueWith]
  | cons b r ih =>
    rw [continueWith]
    split
    · simp
    · split
      · exact Nat.le_succ_of_le (ih ..)
      · simp

theorem length_next_le (b : UInt8) (r : List UInt8) : (next b r).2.length ≤ r.length := by
  unfold next
  split
  · simp
  · exact length_continueWith_le ..

/-- The characters of some bytes, with `none` for each damaged piece. `read` holds, backwards, those
in front. -/
def charsAfter (read : List (Option Char)) : List UInt8 → List (Option Char)
  | [] => read.reverse
  | b :: r => charsAfter ((next b r).1 :: read) (next b r).2
termination_by s => s.length
decreasing_by exact Nat.lt_succ_of_le (length_next_le b r)

/-- The characters of some bytes, with `none` for each damaged piece. -/
def chars (bytes : List UInt8) : List (Option Char) :=
  charsAfter [] bytes

/-- The text that the bytes stand for, if they are not damaged. -/
def decode? (bytes : List UInt8) : Option String :=
  ((chars bytes).mapM id).map String.ofList

/-- The text that the bytes stand for, with U+FFFD for each damaged piece. -/
def decodeLossy (bytes : List UInt8) : String :=
  String.ofList ((chars bytes).map (·.getD '\uFFFD'))

end DocIndex.Utf8
