import Mathlib.Data.List.Basic
import DocIndex.Proofs.Json.Grammar
import DocIndex.Proofs.Text.Utf8

/-!
# Reading string and number literals

A string literal is read piece by piece, whatever escapes it is written with
(`piecesAfter_joined`). A character gives one or several pieces that stand for its bytes
(`CharForm.exists_pieces`), so a literal of characters denotes the text of these
(`exists_textOf_eq`). What the grammar calls a number is one for the reader (`Numeral.isNumber`).
-/

namespace DocIndex.Json

/-! ## Joined forms -/

section Joined

variable {α : Type} {form : α → List UInt8 → Prop}

theorem joined_singleton {a : α} {bytes : List UInt8} (h : form a bytes) :
    Joined form [a] bytes := by
  have joined := Joined.cons h .nil
  rwa [List.append_nil] at joined

theorem Joined.append {l l' : List α} {bytes bytes' : List UInt8} (h : Joined form l bytes)
    (h' : Joined form l' bytes') : Joined form (l ++ l') (bytes ++ bytes') := by
  induction h with
  | nil => exact h'
  | cons first _ ih =>
    rw [List.cons_append, List.append_assoc]
    exact .cons first ih

end Joined

/-! ## Pieces of a string literal -/

theorem HexDigit.hexDigit? {n : Nat} {b : UInt8} (h : HexDigit n b) : hexDigit? b = some n := by
  cases h with
  | decimal small => interval_cases n <;> rfl
  | @upper n small => interval_cases n <;> rfl
  | @lower n small => interval_cases n <;> rfl

theorem piecesAfter_form {p : Piece} {bytes : List UInt8} (h : p.Form bytes) (read : List Piece)
    (r : List UInt8) : piecesAfter read (bytes ++ r) = piecesAfter (p :: read) r := by
  cases h with
  | @byte b printing quote backslash =>
    -- The byte is none of those that the reader looks for first.
    rw [List.singleton_append, piecesAfter, if_neg printing]
    · exact quote
    · exact fun _ _ _ _ _ h _ => backslash h
    · exact fun _ _ h _ => backslash h
  | escaped h =>
    cases h with
    | short listed =>
      simp only [shortEscapes, List.mem_cons, Prod.mk.injEq, List.not_mem_nil, or_false] at listed
      rcases listed with ⟨rfl, rfl⟩ | ⟨rfl, rfl⟩ | ⟨rfl, rfl⟩ | ⟨rfl, rfl⟩ | ⟨rfl, rfl⟩ |
        ⟨rfl, rfl⟩ | ⟨rfl, rfl⟩ | ⟨rfl, rfl⟩ <;> rfl
    | long first second third fourth =>
      simp only [List.cons_append, List.nil_append, piecesAfter, hexUnit?, first.hexDigit?,
        second.hexDigit?, third.hexDigit?, fourth.hexDigit?, Option.bind_eq_bind, Option.bind_some,
        Option.pure_def]

theorem piecesAfter_joined {l : List Piece} {body : List UInt8} (h : Joined Piece.Form l body)
    (read : List Piece) (r : List UInt8) :
    piecesAfter read (body ++ 0x22 :: r) = some (read.reverse ++ l, r) := by
  induction h generalizing read with
  | nil => rw [List.nil_append, piecesAfter, List.append_nil]
  | cons first _ ih =>
    rw [List.append_assoc, piecesAfter_form first, ih, List.reverse_cons, List.append_assoc,
      List.singleton_append]

/-! ## Characters of a string literal -/

/-- Whether the pieces stand for the character, whatever is around them. -/
def StandFor (l : List Piece) (c : Char) : Prop :=
  ∀ read rest, bytesAfter read (l ++ rest) =
    bytesAfter ((Utf8.encodeChar c).reverse ++ read) rest

theorem bytesAfter_bytes (l read : List UInt8) (rest : List Piece) :
    bytesAfter read (l.map .byte ++ rest) = bytesAfter (l.reverse ++ read) rest := by
  induction l generalizing read with
  | nil => rfl
  | cons b l ih =>
    rw [List.map_cons, List.cons_append, bytesAfter, ih, List.reverse_cons, List.append_assoc,
      List.singleton_append]

theorem joined_bytes {l : List UInt8}
    (h : ∀ b ∈ l, ¬ b < 0x20 ∧ b ≠ 0x22 ∧ b ≠ 0x5C) : Joined Piece.Form (l.map .byte) l := by
  induction l with
  | nil => exact .nil
  | cons b l ih =>
    obtain ⟨printing, quote, backslash⟩ := h b List.mem_cons_self
    exact .cons (.byte printing quote backslash) (ih fun c hc => h c (List.mem_cons_of_mem b hc))

/-- The bytes of a character that may stand for itself may do so as well: a quote, a backslash or a
control character among them would be the character, since all others have larger bytes. -/
theorem plain_of_mem_encodeChar {c : Char} (printing : 0x20 ≤ c.toNat) (quote : c ≠ '"')
    (backslash : c ≠ '\\') {b : UInt8} (h : b ∈ Utf8.encodeChar c) :
    ¬ b < 0x20 ∧ b ≠ 0x22 ∧ b ≠ 0x5C := by
  rcases Nat.lt_or_ge c.toNat 0x80 with ascii | large
  · rw [Utf8.encodeChar_of_ascii ascii, List.mem_singleton] at h
    have code : b.toNat = c.toNat := by rw [h, Utf8.toNat_ofNat_of_lt (by omega)]
    have ne {d : UInt8} {e : Char} (same : d.toNat = e.toNat) (other : c ≠ e) : b ≠ d := by
      rintro rfl
      exact other (Char.toNat_inj.1 (code.symm.trans same))
    refine ⟨?_, ne (by decide) quote, ne (by decide) backslash⟩
    rw [UInt8.lt_iff_toNat_lt, code]
    exact Nat.not_lt_of_le printing
  · have large := Utf8.le_of_mem_encodeChar large h
    refine ⟨fun h => ?_, ?_, ?_⟩
    · exact absurd (UInt8.lt_iff_toNat_lt.1 h) (Nat.not_lt_of_le (Nat.le_trans (by decide) large))
    all_goals
      rintro rfl
      exact absurd large (by decide)

theorem isHighSurrogate_iff {unit : Nat} :
    isHighSurrogate unit = true ↔ 0xD800 ≤ unit ∧ unit < 0xDC00 := by
  simp only [isHighSurrogate, Bool.and_eq_true, decide_eq_true_eq]

theorem isLowSurrogate_iff {unit : Nat} :
    isLowSurrogate unit = true ↔ 0xDC00 ≤ unit ∧ unit < 0xE000 := by
  simp only [isLowSurrogate, Bool.and_eq_true, decide_eq_true_eq]

-- No character has the number of a surrogate, so its unit is not taken for one half of a pair.
theorem standFor_unit (c : Char) : StandFor [.escaped c.toNat] c := by
  intro read rest
  have valid : c.toNat < 0xD800 ∨ 0xDFFF < c.toNat ∧ c.toNat < 0x110000 := c.valid
  rw [List.singleton_append, bytesAfter.eq_def]
  simp only
  rw [if_neg (by rw [isHighSurrogate_iff]; omega), if_neg (by rw [isLowSurrogate_iff]; omega),
    Char.ofNat_toNat]

-- The high half is one because no character lies beyond U+10FFFF.
theorem standFor_pair {c : Char} {high low : Nat} (small : low < 0x400)
    (code : c.toNat = 0x10000 + high * 0x400 + low) :
    StandFor [.escaped (0xD800 + high), .escaped (0xDC00 + low)] c := by
  intro read rest
  have valid : c.toNat < 0xD800 ∨ 0xDFFF < c.toNat ∧ c.toNat < 0x110000 := c.valid
  have same : (0xD800 + high - 0xD800) * 0x400 + (0xDC00 + low - 0xDC00) + 0x10000 = c.toNat := by
    rw [code, Nat.add_sub_cancel_left, Nat.add_sub_cancel_left]
    omega
  rw [List.cons_append, List.singleton_append, bytesAfter.eq_def]
  simp only
  rw [if_pos (by rw [isHighSurrogate_iff]; omega), if_pos (by rw [isLowSurrogate_iff]; omega),
    same, Char.ofNat_toNat]

theorem CharForm.exists_pieces {c : Char} {bytes : List UInt8} (h : CharForm c bytes) :
    ∃ l, Joined Piece.Form l bytes ∧ StandFor l c := by
  cases h with
  | plain printing quote backslash =>
    exact ⟨_, joined_bytes fun b hb => plain_of_mem_encodeChar printing quote backslash hb,
      bytesAfter_bytes _⟩
  | escaped h => exact ⟨_, joined_singleton (.escaped h), standFor_unit c⟩
  | pair h l small code =>
    exact ⟨_, .cons (.escaped h) (joined_singleton (.escaped l)), standFor_pair small code⟩

theorem exists_pieces {l : List Char} {body : List UInt8} (h : Joined CharForm l body) :
    ∃ ps, Joined Piece.Form ps body ∧
      ∀ read, bytesAfter read ps = some (read.reverse ++ l.flatMap Utf8.encodeChar) := by
  induction h with
  | nil => exact ⟨[], .nil, fun read => by rw [bytesAfter, List.flatMap_nil, List.append_nil]⟩
  | cons first _ ih =>
    obtain ⟨ps, joined, stand⟩ := first.exists_pieces
    obtain ⟨ps', joined', rest⟩ := ih
    refine ⟨ps ++ ps', joined.append joined', fun read => ?_⟩
    rw [stand, rest, List.reverse_append, List.reverse_reverse, List.append_assoc,
      List.flatMap_cons]

/-- A literal of characters denotes the text of these. -/
theorem exists_textOf_eq {t : String} {body : List UInt8} (h : Joined CharForm t.toList body) :
    ∃ ps, Joined Piece.Form ps body ∧ textOf ps = some t := by
  obtain ⟨ps, joined, bytes⟩ := exists_pieces h
  refine ⟨ps, joined, ?_⟩
  have encoded : bytesAfter [] ps = some (Utf8.encode t) := bytes []
  rw [textOf, encoded]
  exact Utf8.decode?_encode t

/-! ## Numbers -/

section

variable {l e : List Char}

/-- A run of elements is taken up to the first that does not belong to it. -/
theorem takeWhile_append_stop {α : Type} {p : α → Bool} {l r : List α} (all : ∀ a ∈ l, p a)
    (stop : ∀ a ∈ r.head?, p a = false) :
    (l ++ r).takeWhile p = l ∧ (l ++ r).dropWhile p = r := by
  rw [List.takeWhile_append_of_pos all, List.dropWhile_append_of_pos all]
  cases r with
  | nil => exact ⟨List.append_nil l, rfl⟩
  | cons a r =>
    have other : p a = false := stop a rfl
    rw [List.takeWhile_cons_of_neg (by rw [other]; exact Bool.false_ne_true),
      List.dropWhile_cons_of_neg (by rw [other]; exact Bool.false_ne_true)]
    exact ⟨List.append_nil l, rfl⟩

theorem Digits.isDigits (h : Digits l) : isDigits l = true := by
  obtain ⟨some, all⟩ := h
  rw [Json.isDigits, Bool.and_eq_true, List.all_eq_true, Bool.not_eq_true',
    List.isEmpty_eq_false_iff]
  exact ⟨some, all⟩

theorem Digits.ne_cons (h : Digits l) {c : Char} (other : c.isDigit = false) (r : List Char) :
    l ≠ c :: r := by
  rintro rfl
  have digit : c.isDigit = true := h.2 c List.mem_cons_self
  rw [other] at digit
  cases digit

theorem ExponentPart.isExponent (h : ExponentPart e) : isExponent e = true := by
  have mark_eq {c : Char} (mark : c = 'e' ∨ c = 'E') : (c == 'e' || c == 'E') = true := by
    rcases mark with rfl | rfl <;> rfl
  cases h with
  | none => rfl
  | digits mark digits =>
    rw [Json.isExponent, mark_eq mark, digits.isDigits]
    · rfl
    · exact fun r h => digits.ne_cons (by decide) r h
    · exact fun r h => digits.ne_cons (by decide) r h
  | signed mark sign digits =>
    rcases sign with rfl | rfl
    all_goals
      rw [Json.isExponent, mark_eq mark, digits.isDigits]
      rfl

theorem ExponentPart.head?_eq (h : ExponentPart e) {c : Char} (hc : c ∈ e.head?) :
    c = 'e' ∨ c = 'E' := by
  cases h with
  | none => cases hc
  | digits mark | signed mark =>
    cases hc
    exact mark

theorem isFraction_append {f : List Char} (h : FractionPart f) (he : ExponentPart e) :
    isFraction (f ++ e) = true := by
  cases h with
  | none =>
    rw [List.nil_append, isFraction, he.isExponent]
    rintro r rfl
    rcases he.head?_eq rfl with h | h <;> cases h
  | @digits l digits =>
    have stop : ∀ c ∈ e.head?, c.isDigit = false := by
      intro c hc
      rcases he.head?_eq hc with rfl | rfl <;> rfl
    obtain ⟨taken, dropped⟩ := takeWhile_append_stop digits.2 stop
    rw [List.cons_append, isFraction, taken, dropped, digits.isDigits, he.isExponent]
    rfl

theorem Unsigned.isUnsigned (h : Unsigned l) : isUnsigned l = true := by
  obtain @⟨i, f, e, integer, fraction, exponent⟩ := h
  have rest := isFraction_append fraction exponent
  cases integer with
  | zero => exact rest
  | digits digit leading more =>
    have stop : ∀ c ∈ (f ++ e).head?, c.isDigit = false := by
      intro c hc
      cases fraction with
      | none => rcases exponent.head?_eq hc with rfl | rfl <;> rfl
      | digits => cases hc; rfl
    rw [List.cons_append, Json.isUnsigned, (takeWhile_append_stop more stop).2, digit, rest]
    · rfl
    · exact leading

theorem Numeral.isNumber (h : Numeral l) : isNumber l = true := by
  cases h with
  | positive h =>
    rw [Json.isNumber, h.isUnsigned]
    rintro r rfl
    cases h.isUnsigned
  | negative h => exact h.isUnsigned

/-- The characters that numbers are made of. -/
def NumeralChar (c : Char) : Prop :=
  c.isDigit ∨ c ∈ ['+', '-', '.', 'E', 'e']

theorem NumeralChar.bounds {c : Char} (h : NumeralChar c) :
    c.toNat < 0x80 ∧ inNumber (.ofNat c.toNat) = true := by
  rcases h with digit | other
  · rw [Char.isDigit_iff_toNat] at digit
    obtain ⟨low, high⟩ := digit
    have low : 48 ≤ c.toNat := low
    have high : c.toNat ≤ 57 := high
    generalize c.toNat = n at low high
    interval_cases n <;> exact ⟨by decide, rfl⟩
  · simp only [List.mem_cons, List.not_mem_nil, or_false] at other
    rcases other with rfl | rfl | rfl | rfl | rfl <;> exact ⟨by decide, rfl⟩

theorem ExponentPart.chars (h : ExponentPart e) : ∀ c ∈ e, NumeralChar c := by
  have mark_char {c : Char} (mark : c = 'e' ∨ c = 'E') : NumeralChar c := by
    rcases mark with rfl | rfl <;> exact .inr (by decide)
  cases h with
  | none => exact List.forall_mem_nil _
  | digits mark digits =>
    exact List.forall_mem_cons.2 ⟨mark_char mark, fun c hc => .inl (digits.2 c hc)⟩
  | signed mark sign digits =>
    refine List.forall_mem_cons.2 ⟨mark_char mark, List.forall_mem_cons.2 ⟨?_, ?_⟩⟩
    · rcases sign with rfl | rfl <;> exact .inr (by decide)
    · exact fun c hc => .inl (digits.2 c hc)

theorem Unsigned.chars (h : Unsigned l) : ∀ c ∈ l, NumeralChar c := by
  obtain ⟨integer, fraction, exponent⟩ := h
  refine List.forall_mem_append.2 ⟨?_, List.forall_mem_append.2 ⟨?_, exponent.chars⟩⟩
  · cases integer with
    | zero => exact List.forall_mem_singleton.2 (.inl rfl)
    | digits digit _ more => exact List.forall_mem_cons.2 ⟨.inl digit, fun c hc => .inl (more c hc)⟩
  · cases fraction with
    | none => exact List.forall_mem_nil _
    | digits digits =>
      exact List.forall_mem_cons.2 ⟨.inr (by decide), fun c hc => .inl (digits.2 c hc)⟩

theorem Numeral.chars (h : Numeral l) : ∀ c ∈ l, NumeralChar c := by
  cases h with
  | positive h => exact h.chars
  | negative h => exact List.forall_mem_cons.2 ⟨.inr (by decide), h.chars⟩

/-- The bytes of a number are one for each of its characters. -/
theorem Numeral.encode_eq {literal : String} (h : Numeral literal.toList) :
    Utf8.encode literal = literal.toList.map fun c => .ofNat c.toNat := by
  rw [Utf8.encode, List.map_eq_flatMap]
  exact List.flatMap_congr fun c hc => Utf8.encodeChar_of_ascii (h.chars c hc).bounds.1

end

end DocIndex.Json
