import DocIndex.Json.Printer
import DocIndex.Proofs.Json.Literals

/-!
# Compact texts

The text that `compact` writes is one of its value (`spells_compact`), provided that the value can
be written: its numbers are numbers and its string literals denote texts (`Json.Printable`).
Decimal numbers are written without leading zeros (`numeral_toDigits`), and the characters that
cannot stand for themselves are escaped (`charForm_escape`).
-/

namespace DocIndex.Json

open Utf8 (encodeChar)

/-! ## Numbers -/

theorem digitChar_of_pos {n : Nat} (pos : 0 < n) (small : n < 10) :
    (Nat.digitChar n).isDigit = true ∧ Nat.digitChar n ≠ '0' := by
  interval_cases n <;> exact ⟨rfl, by decide⟩

theorem exists_toDigits_eq_cons {n : Nat} (pos : 0 < n) :
    ∃ d l, Nat.toDigits 10 n = d :: l ∧ d.isDigit = true ∧ d ≠ '0' := by
  induction n using Nat.strongRecOn with
  | ind n ih =>
    rcases Nat.lt_or_ge n 10 with small | large
    · obtain ⟨digit, leading⟩ := digitChar_of_pos pos small
      exact ⟨_, [], Nat.toDigits_of_lt_base small, digit, leading⟩
    · obtain ⟨d, l, front, digit, leading⟩ := ih (n / 10) (by omega) (by omega)
      refine ⟨d, l ++ [Nat.digitChar (n % 10)], ?_, digit, leading⟩
      rw [Nat.toDigits_of_base_le (by decide) large, front, List.cons_append]

/-- Decimal numbers have no leading zero. -/
theorem integerPart_toDigits (n : Nat) : IntegerPart (Nat.toDigits 10 n) := by
  rcases Nat.eq_zero_or_pos n with rfl | pos
  · exact .zero
  · obtain ⟨d, l, digits, digit, leading⟩ := exists_toDigits_eq_cons pos
    have all (c : Char) (hc : c ∈ d :: l) : c.isDigit = true :=
      Nat.isDigit_of_mem_toDigits (n := n) (by decide) (by decide) (digits ▸ hc)
    rw [digits]
    exact .digits digit leading fun c hc => all c (List.mem_cons_of_mem d hc)

theorem numeral_toString (n : Nat) : Numeral (toString n).toList := by
  have whole : Unsigned (Nat.toDigits 10 n ++ ([] ++ [])) :=
    .parts (integerPart_toDigits n) .none .none
  rw [List.append_nil, List.append_nil] at whole
  rw [Nat.toString_eq_ofList_toDigits, String.toList_ofList]
  exact .positive whole

/-! ## Strings -/

theorem exists_hexDigit {n : Nat} (small : n < 16) :
    ∃ b, encodeChar (Nat.digitChar n) = [b] ∧ HexDigit n b := by
  rcases Nat.lt_or_ge n 10 with decimal | letter
  · refine ⟨_, ?_, .decimal decimal⟩
    interval_cases n <;> rfl
  · obtain ⟨k, rfl⟩ := Nat.exists_eq_add_of_le' letter
    refine ⟨_, ?_, .lower (by omega)⟩
    have small : k < 6 := by omega
    interval_cases k <;> rfl

theorem charForm_control {c : Char} (control : c.toNat < 0x20) :
    CharForm c (['\\', 'u', '0', '0', Nat.digitChar (c.toNat / 16),
      Nat.digitChar (c.toNat % 16)].flatMap encodeChar) := by
  obtain ⟨x, hx, first⟩ := exists_hexDigit (n := c.toNat / 16) (by omega)
  obtain ⟨y, hy, second⟩ := exists_hexDigit (n := c.toNat % 16) (by omega)
  have zero : HexDigit 0 0x30 := .decimal (by decide)
  have unit : ((0 * 16 + 0) * 16 + c.toNat / 16) * 16 + c.toNat % 16 = c.toNat := by omega
  have escape := Escape.long zero zero first second
  rw [unit] at escape
  simp only [List.flatMap_cons, List.flatMap_nil, hx, hy]
  exact .escaped escape

theorem charForm_escape (c : Char) : CharForm c ((escape c).flatMap encodeChar) := by
  have short {c : Char} {e : UInt8} (listed : (e, c.toNat) ∈ shortEscapes) : CharForm c [0x5C, e] :=
    .escaped (.short listed)
  unfold escape
  split
  · exact short (by decide)
  · exact short (by decide)
  · exact short (by decide)
  · exact short (by decide)
  · exact short (by decide)
  · exact short (by decide)
  · exact short (by decide)
  · next quote backslash _ _ _ _ _ =>
    split_ifs with control
    · exact charForm_control control
    · rw [List.flatMap_singleton]
      exact .plain (Nat.le_of_not_lt control) quote backslash

theorem joined_escape (l : List Char) :
    Joined CharForm l ((l.flatMap escape).flatMap encodeChar) := by
  induction l with
  | nil => exact .nil
  | cons c l ih =>
    rw [List.flatMap_cons, List.flatMap_append]
    exact .cons (charForm_escape c) ih

theorem form_quote (s : String) :
    Token.Form (.string (some s)) ((quote s).flatMap encodeChar) := by
  have bytes : (quote s).flatMap encodeChar =
      0x22 :: ((s.toList.flatMap escape).flatMap encodeChar ++ [0x22]) := by
    rw [quote, List.flatMap_append, List.flatMap_cons]
    rfl
  rw [bytes]
  exact .text (joined_escape s.toList)

/-! ## Values -/

/-- Whether the token can be written. -/
def Token.Printable : Token → Prop
  | .number literal => Numeral literal.toList
  | .string text => text.isSome
  | _ => True

/-- Whether the value can be written. -/
def Printable (j : Json) : Prop :=
  ∀ t ∈ j.tokens, t.Printable

theorem Token.Form.spaced {token : Token} {bytes : List UInt8} (h : token.Form bytes) :
    token.Spaced bytes :=
  .behind (List.forall_mem_nil _) h

theorem spaced_quoteText {text : Text} (h : text.isSome) :
    Token.Spaced (.string text) ((quoteText text).flatMap encodeChar) := by
  obtain ⟨s, rfl⟩ := Option.isSome_iff_exists.1 h
  exact (form_quote s).spaced

theorem compactItems_cons (j k : Json) (items : List Json) :
    compactItems (j :: k :: items) = compactChars j ++ ',' :: compactItems (k :: items) :=
  rfl

theorem compactFields_singleton (name : Text) (j : Json) :
    compactFields [(name, j)] = quoteText name ++ ':' :: (compactChars j ++ ['\x7D']) := by
  rw [compactFields, List.append_assoc, List.cons_append]

theorem compactFields_cons (name : Text) (j : Json) (field : Text × Json)
    (fields : List (Text × Json)) : compactFields ((name, j) :: field :: fields) =
      quoteText name ++ ':' :: (compactChars j ++ ',' :: compactFields (field :: fields)) := by
  rw [compactFields, List.append_assoc, List.cons_append]
  exact List.cons_ne_nil field fields

mutual

theorem joined_compactChars (j : Json) (h : ∀ t ∈ j.tokens, t.Printable) :
    Joined Token.Spaced j.tokens ((compactChars j).flatMap encodeChar) := by
  match j with
  | .null => exact joined_singleton Token.Form.null.spaced
  | .bool true => exact joined_singleton Token.Form.true.spaced
  | .bool false => exact joined_singleton Token.Form.false.spaced
  | .number literal =>
    exact joined_singleton (Token.Form.number (h _ List.mem_cons_self)).spaced
  | .string text => exact joined_singleton (spaced_quoteText (h _ List.mem_cons_self))
  | .array items =>
    exact .cons Token.Form.openArray.spaced
      (joined_compactItems items (List.forall_mem_cons.1 h).2)
  | .object fields =>
    exact .cons Token.Form.openObject.spaced
      (joined_compactFields fields (List.forall_mem_cons.1 h).2)

theorem joined_compactItems (items : List Json) (h : ∀ t ∈ itemTokens items, t.Printable) :
    Joined Token.Spaced (itemTokens items) ((compactItems items).flatMap encodeChar) := by
  match items with
  | [] => exact joined_singleton Token.Form.closeArray.spaced
  | [j] =>
    rw [itemTokens, List.forall_mem_append] at h
    rw [itemTokens, compactItems, List.flatMap_append]
    exact (joined_compactChars j h.1).append (joined_singleton Token.Form.closeArray.spaced)
  | j :: k :: items =>
    rw [itemTokens_cons, List.forall_mem_append, List.forall_mem_cons] at h
    rw [itemTokens_cons, compactItems_cons, List.flatMap_append, List.flatMap_cons]
    exact (joined_compactChars j h.1).append
      (.cons Token.Form.comma.spaced (joined_compactItems (k :: items) h.2.2))

theorem joined_compactFields (fields : List (Text × Json))
    (h : ∀ t ∈ fieldTokens fields, t.Printable) :
    Joined Token.Spaced (fieldTokens fields) ((compactFields fields).flatMap encodeChar) := by
  match fields with
  | [] => exact joined_singleton Token.Form.closeObject.spaced
  | [(name, j)] =>
    rw [fieldTokens_singleton, List.forall_mem_cons, List.forall_mem_cons,
      List.forall_mem_append] at h
    rw [fieldTokens_singleton, compactFields_singleton, List.flatMap_append, List.flatMap_cons,
      List.flatMap_append]
    exact .cons (spaced_quoteText h.1) (.cons Token.Form.colon.spaced
      ((joined_compactChars j h.2.2.1).append (joined_singleton Token.Form.closeObject.spaced)))
  | (name, j) :: field :: fields =>
    rw [fieldTokens_cons, List.forall_mem_cons, List.forall_mem_cons, List.forall_mem_append,
      List.forall_mem_cons] at h
    rw [fieldTokens_cons, compactFields_cons, List.flatMap_append, List.flatMap_cons,
      List.flatMap_append, List.flatMap_cons]
    exact .cons (spaced_quoteText h.1) (.cons Token.Form.colon.spaced
      ((joined_compactChars j h.2.2.1).append
        (.cons Token.Form.comma.spaced (joined_compactFields (field :: fields) h.2.2.2.2))))

end

/-- The compact text of a value is one of its texts. -/
theorem spells_compact {j : Json} (h : j.Printable) : Spells (Utf8.encode j.compact) j := by
  have text : Spells ((compactChars j).flatMap encodeChar ++ []) j :=
    .text (joined_compactChars j h) (List.forall_mem_nil _)
  rwa [List.append_nil, ← String.toList_ofList (l := compactChars j)] at text

/-! ## Values that can be written -/

theorem printable_null : Json.null.Printable :=
  List.forall_mem_singleton.2 trivial

theorem printable_bool (b : Bool) : (Json.bool b).Printable :=
  List.forall_mem_singleton.2 trivial

theorem printable_text (s : String) : (text s).Printable :=
  List.forall_mem_singleton.2 rfl

theorem printable_nat (n : Nat) : (nat n).Printable :=
  List.forall_mem_singleton.2 (numeral_toString n)

theorem printable_array {items : List Json} (h : ∀ j ∈ items, j.Printable) :
    (array items).Printable := by
  refine List.forall_mem_cons.2 ⟨trivial, ?_⟩
  induction items with
  | nil => exact List.forall_mem_singleton.2 trivial
  | cons j items ih =>
    obtain ⟨first, h⟩ := List.forall_mem_cons.1 h
    cases items with
    | nil =>
      rw [itemTokens]
      exact List.forall_mem_append.2 ⟨first, List.forall_mem_singleton.2 trivial⟩
    | cons k items =>
      rw [itemTokens_cons]
      exact List.forall_mem_append.2 ⟨first, List.forall_mem_cons.2 ⟨trivial, ih h⟩⟩

theorem printable_record {entries : List (String × Json)} (h : ∀ e ∈ entries, e.2.Printable) :
    (record entries).Printable := by
  refine List.forall_mem_cons.2 ⟨trivial, ?_⟩
  induction entries with
  | nil => exact List.forall_mem_singleton.2 trivial
  | cons e entries ih =>
    obtain ⟨name, j⟩ := e
    obtain ⟨first, h⟩ := List.forall_mem_cons.1 h
    cases entries with
    | nil =>
      refine List.forall_mem_cons.2 ⟨rfl, List.forall_mem_cons.2 ⟨trivial, ?_⟩⟩
      exact List.forall_mem_append.2 ⟨first, List.forall_mem_singleton.2 trivial⟩
    | cons e entries =>
      refine List.forall_mem_cons.2 ⟨rfl, List.forall_mem_cons.2 ⟨trivial, ?_⟩⟩
      exact List.forall_mem_append.2 ⟨first, List.forall_mem_cons.2 ⟨trivial, ih h⟩⟩

theorem printable_ofList {α : Type} {write : α → Json} (h : ∀ a, (write a).Printable)
    (l : List α) : (ofList write l).Printable := by
  refine printable_array fun j hj => ?_
  obtain ⟨a, -, rfl⟩ := List.mem_map.1 hj
  exact h a

theorem printable_ofOption {α : Type} {write : α → Json} (h : ∀ a, (write a).Printable)
    (o : Option α) : (ofOption write o).Printable := by
  cases o with
  | none => exact printable_null
  | some a => exact h a

end DocIndex.Json
