import DocIndex.Json.Token

/-!
# The grammar of JSON texts

How a JSON text may be written, told without the reader. A text of a value is made of the tokens of
the value (`Json.tokens`), each in one of its forms, with any white space between and around them
(`Json.Spells`). A number has the sign, fraction and exponent that its literal shows. A character of
a string literal may stand for itself, unless it is a quote, a backslash or a control character, or
be written as escaped UTF-16 units (`CharForm`).

String literals that denote no text are well formed too: they are any pieces in a row, and what
the pieces denote is left to `textOf`. Only values that nothing is read from are written so.
-/

namespace DocIndex.Json

/-- Things that are written one behind the other, each in one of its forms. -/
inductive Joined {α : Type} (form : α → List UInt8 → Prop) : List α → List UInt8 → Prop
  | nil : Joined form [] []
  | cons {a : α} {l : List α} {bytes rest : List UInt8} (first : form a bytes)
      (others : Joined form l rest) : Joined form (a :: l) (bytes ++ rest)

/-- White space between tokens: blanks, tabulators and line ends. -/
def Space (bytes : List UInt8) : Prop :=
  ∀ b ∈ bytes, b ∈ [0x20, 0x09, 0x0A, 0x0D]

instance (bytes : List UInt8) : Decidable (Space bytes) :=
  List.decidableBAll _ bytes

/-! ## Numbers -/

/-- One digit or more. -/
def Digits (l : List Char) : Prop :=
  l ≠ [] ∧ ∀ c ∈ l, c.isDigit

/-- The digits of a number in front of its point. No zero leads them. -/
inductive IntegerPart : List Char → Prop
  | zero : IntegerPart ['0']
  | digits {d : Char} {l : List Char} (digit : d.isDigit) (leading : d ≠ '0')
      (more : ∀ c ∈ l, c.isDigit) : IntegerPart (d :: l)

/-- What may follow the integer part. -/
inductive FractionPart : List Char → Prop
  | none : FractionPart []
  | digits {l : List Char} (digits : Digits l) : FractionPart ('.' :: l)

/-- What may follow the fraction. -/
inductive ExponentPart : List Char → Prop
  | none : ExponentPart []
  | digits {e : Char} {l : List Char} (mark : e = 'e' ∨ e = 'E') (digits : Digits l) :
      ExponentPart (e :: l)
  | signed {e s : Char} {l : List Char} (mark : e = 'e' ∨ e = 'E') (sign : s = '+' ∨ s = '-')
      (digits : Digits l) : ExponentPart (e :: s :: l)

/-- A number without a sign. -/
inductive Unsigned : List Char → Prop
  | parts {i f e : List Char} (integer : IntegerPart i) (fraction : FractionPart f)
      (exponent : ExponentPart e) : Unsigned (i ++ (f ++ e))

/-- A number. -/
inductive Numeral : List Char → Prop
  | positive {l : List Char} (h : Unsigned l) : Numeral l
  | negative {l : List Char} (h : Unsigned l) : Numeral ('-' :: l)

/-! ## Strings -/

/-- A hexadecimal digit; the larger ones are letters of either case. -/
inductive HexDigit : Nat → UInt8 → Prop
  | decimal {n : Nat} (small : n < 10) : HexDigit n (.ofNat (0x30 + n))
  | upper {n : Nat} (small : n < 6) : HexDigit (n + 10) (.ofNat (0x41 + n))
  | lower {n : Nat} (small : n < 6) : HexDigit (n + 10) (.ofNat (0x61 + n))

/-- The bytes that stand for a UTF-16 unit behind a backslash. -/
def shortEscapes : List (UInt8 × Nat) :=
  [(0x22, 0x22), (0x5C, 0x5C), (0x2F, 0x2F), (0x62, 8), (0x66, 12), (0x6E, 10), (0x72, 13),
    (0x74, 9)]

/-- A UTF-16 unit behind a backslash: one of the short escapes, or `u` and four digits. -/
inductive Escape : Nat → List UInt8 → Prop
  | short {e : UInt8} {unit : Nat} (listed : (e, unit) ∈ shortEscapes) : Escape unit [0x5C, e]
  | long {a b c d : Nat} {x y z w : UInt8} (first : HexDigit a x) (second : HexDigit b y)
      (third : HexDigit c z) (fourth : HexDigit d w) :
      Escape (((a * 16 + b) * 16 + c) * 16 + d) [0x5C, 0x75, x, y, z, w]

/-- A character inside a string literal. Beyond the range of one unit it takes a pair of
surrogates. -/
inductive CharForm : Char → List UInt8 → Prop
  | plain {c : Char} (printing : 0x20 ≤ c.toNat) (quote : c ≠ '"') (backslash : c ≠ '\\') :
      CharForm c (Utf8.encodeChar c)
  | escaped {c : Char} {bytes : List UInt8} (h : Escape c.toNat bytes) : CharForm c bytes
  | pair {c : Char} {high low : Nat} {first second : List UInt8} (h : Escape (0xD800 + high) first)
      (l : Escape (0xDC00 + low) second) (small : low < 0x400)
      (code : c.toNat = 0x10000 + high * 0x400 + low) : CharForm c (first ++ second)

/-- A piece of any string literal. -/
inductive Piece.Form : Piece → List UInt8 → Prop
  | byte {b : UInt8} (printing : ¬ b < 0x20) (quote : b ≠ 0x22) (backslash : b ≠ 0x5C) :
      Form (.byte b) [b]
  | escaped {unit : Nat} {bytes : List UInt8} (h : Escape unit bytes) : Form (.escaped unit) bytes

/-! ## Tokens -/

/-- A token. -/
inductive Token.Form : Token → List UInt8 → Prop
  | openArray : Form .openArray [0x5B]
  | closeArray : Form .closeArray [0x5D]
  | openObject : Form .openObject [0x7B]
  | closeObject : Form .closeObject [0x7D]
  | comma : Form .comma [0x2C]
  | colon : Form .colon [0x3A]
  | null : Form .null [0x6E, 0x75, 0x6C, 0x6C]
  | true : Form (.bool true) [0x74, 0x72, 0x75, 0x65]
  | false : Form (.bool false) [0x66, 0x61, 0x6C, 0x73, 0x65]
  | number {literal : String} (h : Numeral literal.toList) :
      Form (.number literal) (Utf8.encode literal)
  | text {t : String} {body : List UInt8} (h : Joined CharForm t.toList body) :
      Form (.string (some t)) (0x22 :: (body ++ [0x22]))
  | pieces {l : List Piece} {body : List UInt8} (h : Joined Piece.Form l body) :
      Form (.string (textOf l)) (0x22 :: (body ++ [0x22]))

/-- A token with white space in front of it. -/
inductive Token.Spaced : Token → List UInt8 → Prop
  | behind {token : Token} {space bytes : List UInt8} (blank : Space space)
      (form : Form token bytes) : Spaced token (space ++ bytes)

/-! ## Values -/

mutual

/-- The tokens of a value. -/
def tokens : Json → List Token
  | .null => [.null]
  | .bool b => [.bool b]
  | .number literal => [.number literal]
  | .string text => [.string text]
  | .array items => .openArray :: itemTokens items
  | .object fields => .openObject :: fieldTokens fields

/-- The tokens of the items of an array and its end. -/
def itemTokens : List Json → List Token
  | [] => [.closeArray]
  | [j] => tokens j ++ [.closeArray]
  | j :: rest => tokens j ++ .comma :: itemTokens rest

/-- The tokens of the fields of an object and its end. -/
def fieldTokens : List (Text × Json) → List Token
  | [] => [.closeObject]
  | [(name, j)] => .string name :: .colon :: (tokens j ++ [.closeObject])
  | (name, j) :: rest => .string name :: .colon :: (tokens j ++ .comma :: fieldTokens rest)

end

theorem itemTokens_cons (j k : Json) (items : List Json) :
    itemTokens (j :: k :: items) = j.tokens ++ .comma :: itemTokens (k :: items) :=
  rfl

theorem fieldTokens_singleton (name : Text) (j : Json) :
    fieldTokens [(name, j)] = .string name :: .colon :: (j.tokens ++ [.closeObject]) :=
  rfl

theorem fieldTokens_cons (name : Text) (j : Json) (field : Text × Json)
    (fields : List (Text × Json)) : fieldTokens ((name, j) :: field :: fields) =
      .string name :: .colon :: (j.tokens ++ .comma :: fieldTokens (field :: fields)) :=
  rfl

/-- Whether the text is one of the value. -/
inductive Spells : List UInt8 → Json → Prop
  | text {j : Json} {front space : List UInt8} (placed : Joined Token.Spaced j.tokens front)
      (blank : Space space) : Spells (front ++ space) j

theorem Spells.of_eq {j : Json} {text front space : List UInt8}
    (placed : Joined Token.Spaced j.tokens front) (blank : Space space)
    (same : text = front ++ space) : Spells text j := by
  rw [same]
  exact .text placed blank

end DocIndex.Json
