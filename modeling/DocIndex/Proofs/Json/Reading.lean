import Mathlib.Data.List.Chain
import DocIndex.Json.Reader
import DocIndex.Proofs.Json.Literals

/-!
# Reading JSON texts

A token in any of its forms is read as that token (`next_form`), unless it is a number and more
characters of numbers follow. In the tokens of a value no number stands behind a number
(`isChain_tokens`), so a text of a value has its tokens (`all?_of_spells`). These take the reader
from the start of the value to its end, whatever is open around it (`finish?_tokens`). Together, a
text of a value is read as that value (`parse?_of_spells`).
-/

namespace DocIndex.Json

/-! ## One token -/

/-- Whether the token is a number. -/
def Token.IsNumber : Token → Prop
  | .number _ => True
  | _ => False

theorem isSpace_of_inNumber {b : UInt8} (h : inNumber b = true) : isSpace b = false := by
  rw [Bool.eq_false_iff]
  intro blank
  simp only [isSpace, Bool.or_eq_true, beq_iff_eq] at blank
  rcases blank with ((rfl | rfl) | rfl) | rfl <;> cases h

theorem isSpace_of_blank {b : UInt8} (h : b ∈ [0x20, 0x09, 0x0A, 0x0D]) :
    isSpace b = true ∧ inNumber b = false := by
  simp only [List.mem_cons, List.not_mem_nil, or_false] at h
  rcases h with rfl | rfl | rfl | rfl <;> exact ⟨rfl, rfl⟩

/-- A byte that numbers are made of starts a number, if it starts a token. -/
theorem next_of_inNumber {b : UInt8} {r : List UInt8} (h : inNumber b = true) :
    Token.next b r =
      let literal := (b :: r.takeWhile inNumber).map fun b => Char.ofNat b.toNat
      if isNumber literal then some (.number (String.ofList literal), r.dropWhile inNumber)
      else none := by
  unfold Token.next
  split
  case h_11 => rfl
  all_goals exact absurd h (by decide)

/-- The characters of a number are told by its bytes. -/
theorem map_ofNat_toNat {l : List Char} (chars : ∀ c ∈ l, NumeralChar c) :
    (l.map fun c => UInt8.ofNat c.toNat).map (fun b => Char.ofNat b.toNat) = l := by
  rw [List.map_map]
  conv_rhs => rw [← List.map_id l]
  refine List.map_congr_left fun c hc => ?_
  have ascii : c.toNat < 256 := Nat.lt_trans (chars c hc).bounds.1 (by decide)
  rw [Function.comp_apply, Utf8.toNat_ofNat_of_lt ascii, Char.ofNat_toNat, id]

theorem next_number {literal : String} (h : Numeral literal.toList) {r : List UInt8}
    (stop : ∀ b ∈ r.head?, inNumber b = false) :
    ∃ b bs, Utf8.encode literal = b :: bs ∧ isSpace b = false ∧
      Token.next b (bs ++ r) = some (.number literal, r) := by
  have back := map_ofNat_toNat h.chars
  have inside : ∀ b ∈ literal.toList.map fun c => UInt8.ofNat c.toNat, inNumber b = true := by
    intro b hb
    obtain ⟨c, hc, rfl⟩ := List.mem_map.1 hb
    exact (h.chars c hc).bounds.2
  rw [h.encode_eq]
  cases bytes : literal.toList.map fun c => UInt8.ofNat c.toNat with
  | nil =>
    have number := h.isNumber
    rw [List.map_eq_nil_iff.1 bytes] at number
    cases number
  | cons b bs =>
    rw [bytes] at back inside
    obtain ⟨first, rest⟩ := List.forall_mem_cons.1 inside
    obtain ⟨taken, dropped⟩ := takeWhile_append_stop rest stop
    refine ⟨b, bs, rfl, isSpace_of_inNumber first, ?_⟩
    rw [next_of_inNumber first, taken, dropped, back]
    simp only [String.ofList_toList]
    exact if_pos h.isNumber

/-- A token is read as itself. A number ends in front of what numbers are not made of. -/
theorem next_form {token : Token} {bytes : List UInt8} (h : token.Form bytes) {r : List UInt8}
    (stop : token.IsNumber → ∀ b ∈ r.head?, inNumber b = false) :
    ∃ b bs, bytes = b :: bs ∧ isSpace b = false ∧ Token.next b (bs ++ r) = some (token, r) := by
  have read {l : List Piece} {body : List UInt8} (h : Joined Piece.Form l body) :
      Token.next 0x22 (body ++ [0x22] ++ r) = some (.string (textOf l), r) := by
    have pieces := piecesAfter_joined h [] r
    rw [List.append_assoc]
    show (piecesAfter [] (body ++ 0x22 :: r) >>= fun x => _) = _
    rw [pieces]
    rfl
  cases h with
  | number h => exact next_number h (stop trivial)
  | text h =>
    obtain ⟨l, joined, denotes⟩ := exists_textOf_eq h
    exact ⟨_, _, rfl, rfl, denotes ▸ read joined⟩
  | pieces h => exact ⟨_, _, rfl, rfl, read h⟩
  | _ => exact ⟨_, _, rfl, rfl, rfl⟩

/-! ## All tokens -/

theorem allAfter?_space {space : List UInt8} (blank : Space space) (read : List Token)
    (r : List UInt8) : Token.allAfter? read (space ++ r) = Token.allAfter? read r := by
  induction space with
  | nil => rfl
  | cons b space ih =>
    obtain ⟨first, rest⟩ := List.forall_mem_cons.1 blank
    rw [List.cons_append, Token.allAfter?, if_pos (isSpace_of_blank first).1, ih rest]

theorem allAfter?_spaced {token : Token} {bytes : List UInt8} (h : token.Spaced bytes)
    (read : List Token) {r : List UInt8}
    (stop : token.IsNumber → ∀ b ∈ r.head?, inNumber b = false) :
    Token.allAfter? read (bytes ++ r) = Token.allAfter? (token :: read) r := by
  obtain ⟨blank, form⟩ := h
  obtain ⟨b, bs, rfl, visible, next⟩ := next_form form stop
  rw [List.append_assoc, allAfter?_space blank, List.cons_append, Token.allAfter?,
    if_neg (by rw [visible]; exact Bool.false_ne_true)]
  split
  · next h => rw [next] at h; cases h
  · next h => rw [next] at h; cases h; rfl

/-- No number stands behind a number. -/
def Apart (a b : Token) : Prop :=
  a.IsNumber → ¬ b.IsNumber

theorem Token.Spaced.head?_append {token : Token} {bytes : List UInt8} (h : token.Spaced bytes)
    (other : ¬ token.IsNumber) (r : List UInt8) :
    ∀ b ∈ (bytes ++ r).head?, inNumber b = false := by
  obtain @⟨space, bytes, blank, form⟩ := h
  intro b hb
  cases space with
  | cons c space =>
    cases hb
    exact (isSpace_of_blank (List.forall_mem_cons.1 blank).1).2
  | nil =>
    cases form with
    | number => exact absurd trivial other
    | _ => cases hb; rfl

theorem head?_joined {l : List Token} {front space : List UInt8}
    (h : Joined Token.Spaced l front) (blank : Space space) (stop : ∀ t ∈ l.head?, ¬ t.IsNumber) :
    ∀ b ∈ (front ++ space).head?, inNumber b = false := by
  cases h with
  | nil => exact fun b hb => (isSpace_of_blank (blank b (List.mem_of_mem_head? hb))).2
  | cons first _ =>
    rw [List.append_assoc]
    exact first.head?_append (stop _ rfl) _

theorem allAfter?_joined {l : List Token} {front space : List UInt8}
    (h : Joined Token.Spaced l front) (apart : l.IsChain Apart) (blank : Space space)
    (read : List Token) : Token.allAfter? read (front ++ space) = some (read.reverse ++ l) := by
  induction h generalizing read with
  | nil =>
    have skip := allAfter?_space blank read []
    rw [List.append_nil] at skip
    rw [List.nil_append, skip, Token.allAfter?, List.append_nil]
  | @cons token l bytes rest first others ih =>
    obtain ⟨next, apart⟩ := List.isChain_cons.1 apart
    have stop : token.IsNumber → ∀ b ∈ (rest ++ space).head?, inNumber b = false :=
      fun number => head?_joined others blank fun t ht => next t ht number
    rw [List.append_assoc, allAfter?_spaced first read stop, ih apart, List.reverse_cons,
      List.append_assoc, List.singleton_append]

/-! ## The tokens of a value -/

theorem not_isNumber_head? {a : Token} (other : ¬ a.IsNumber) (l : List Token) :
    ∀ t ∈ (a :: l).head?, ¬ t.IsNumber := by
  rintro _ ⟨⟩
  exact other

theorem isChain_cons_of_not {a : Token} {l : List Token} (other : ¬ a.IsNumber)
    (apart : l.IsChain Apart) : (a :: l).IsChain Apart :=
  List.isChain_cons.2 ⟨fun _ _ number => absurd number other, apart⟩

mutual

theorem isChain_tokens (j : Json) {rest : List Token} (apart : rest.IsChain Apart)
    (stop : ∀ t ∈ rest.head?, ¬ t.IsNumber) : (j.tokens ++ rest).IsChain Apart := by
  cases j with
  | null | bool _ | string _ => exact isChain_cons_of_not id apart
  | number literal => exact List.isChain_cons.2 ⟨fun t ht _ => stop t ht, apart⟩
  | array items => exact isChain_cons_of_not id (isChain_itemTokens items apart)
  | object fields => exact isChain_cons_of_not id (isChain_fieldTokens fields apart)

theorem isChain_itemTokens (items : List Json) {rest : List Token} (apart : rest.IsChain Apart) :
    (itemTokens items ++ rest).IsChain Apart := by
  match items with
  | [] => exact isChain_cons_of_not id apart
  | [j] =>
    rw [itemTokens, List.append_assoc]
    exact isChain_tokens j (isChain_cons_of_not id apart) (not_isNumber_head? id rest)
  | j :: k :: items =>
    have later := isChain_itemTokens (k :: items) apart
    rw [itemTokens_cons, List.append_assoc]
    exact isChain_tokens j (isChain_cons_of_not id later) (not_isNumber_head? id _)

theorem isChain_fieldTokens (fields : List (Text × Json)) {rest : List Token}
    (apart : rest.IsChain Apart) : (fieldTokens fields ++ rest).IsChain Apart := by
  match fields with
  | [] => exact isChain_cons_of_not id apart
  | [(name, j)] =>
    rw [fieldTokens_singleton, List.cons_append, List.cons_append, List.append_assoc]
    refine isChain_cons_of_not id (isChain_cons_of_not id ?_)
    exact isChain_tokens j (isChain_cons_of_not id apart) (not_isNumber_head? id rest)
  | (name, j) :: field :: fields =>
    have later := isChain_fieldTokens (field :: fields) apart
    rw [fieldTokens_cons, List.cons_append, List.cons_append, List.append_assoc]
    refine isChain_cons_of_not id (isChain_cons_of_not id ?_)
    exact isChain_tokens j (isChain_cons_of_not id later) (not_isNumber_head? id _)

end

theorem all?_of_spells {text : List UInt8} {j : Json} (h : Spells text j) :
    Token.all? text = some j.tokens := by
  obtain ⟨placed, blank⟩ := h
  have apart := isChain_tokens j List.IsChain.nil (by rintro _ ⟨⟩)
  rw [List.append_nil] at apart
  exact allAfter?_joined placed apart blank []

/-! ## Whole values -/

open Waiting

/-- What starts a value starts the first item of an array. -/
theorem finish?_firstItem (j : Json) (items : List Json) (outer : List Frame)
    (rest : List Token) : (firstItem outer).finish? (itemTokens (j :: items) ++ rest) =
      (value (.item [] :: outer)).finish? (itemTokens (j :: items) ++ rest) := by
  cases items <;> cases j <;> rfl

theorem finish?_firstName (field : Text × Json) (fields : List (Text × Json))
    (outer : List Frame) (rest : List Token) :
    (firstName outer).finish? (fieldTokens (field :: fields) ++ rest) =
      (name [] outer).finish? (fieldTokens (field :: fields) ++ rest) := by
  cases fields <;> rfl

-- Along the tokens of a value, with what is open around it and what follows arbitrary. The values
-- in an array or object are followed one by one.
mutual

theorem finish?_tokens (j : Json) (outer : List Frame) (rest : List Token) :
    (value outer).finish? (j.tokens ++ rest) = (afterValue j outer).finish? rest := by
  match j with
  | .null | .bool _ | .number _ | .string _ | .array [] | .object [] => rfl
  | .array (k :: items) =>
    calc (value outer).finish? ((Json.array (k :: items)).tokens ++ rest)
        = (firstItem outer).finish? (itemTokens (k :: items) ++ rest) := rfl
      _ = (value (.item [] :: outer)).finish? (itemTokens (k :: items) ++ rest) :=
        finish?_firstItem k items outer rest
      _ = (afterValue (.array (k :: items)) outer).finish? rest :=
        finish?_itemTokens (k :: items) (List.cons_ne_nil k items) [] outer rest
  | .object (field :: fields) =>
    calc (value outer).finish? ((Json.object (field :: fields)).tokens ++ rest)
        = (firstName outer).finish? (fieldTokens (field :: fields) ++ rest) := rfl
      _ = (name [] outer).finish? (fieldTokens (field :: fields) ++ rest) :=
        finish?_firstName field fields outer rest
      _ = (afterValue (.object (field :: fields)) outer).finish? rest :=
        finish?_fieldTokens (field :: fields) (List.cons_ne_nil field fields) [] outer rest

theorem finish?_itemTokens (items : List Json) (some : items ≠ []) (before : List Json)
    (outer : List Frame) (rest : List Token) :
    (value (.item before :: outer)).finish? (itemTokens items ++ rest) =
      (afterValue (.array (before.reverse ++ items)) outer).finish? rest := by
  match items with
  | [] => exact absurd rfl some
  | [j] =>
    calc (value (.item before :: outer)).finish? (itemTokens [j] ++ rest)
        = (value (.item before :: outer)).finish? (j.tokens ++ .closeArray :: rest) := by
          rw [itemTokens, List.append_assoc, List.singleton_append]
      _ = (afterItem (j :: before) outer).finish? (.closeArray :: rest) :=
        finish?_tokens j (.item before :: outer) _
      _ = (afterValue (.array (j :: before).reverse) outer).finish? rest := rfl
      _ = _ := by rw [List.reverse_cons]
  | j :: k :: items =>
    calc (value (.item before :: outer)).finish? (itemTokens (j :: k :: items) ++ rest)
        = (value (.item before :: outer)).finish?
            (j.tokens ++ .comma :: (itemTokens (k :: items) ++ rest)) := by
          rw [itemTokens_cons, List.append_assoc, List.cons_append]
      _ = (afterItem (j :: before) outer).finish? (.comma :: (itemTokens (k :: items) ++ rest)) :=
        finish?_tokens j (.item before :: outer) _
      _ = (value (.item (j :: before) :: outer)).finish? (itemTokens (k :: items) ++ rest) := rfl
      _ = (afterValue (.array ((j :: before).reverse ++ k :: items)) outer).finish? rest :=
        finish?_itemTokens (k :: items) (List.cons_ne_nil k items) (j :: before) outer rest
      _ = _ := by rw [List.reverse_cons, List.append_assoc, List.singleton_append]

theorem finish?_fieldTokens (fields : List (Text × Json)) (some : fields ≠ [])
    (before : List (Text × Json)) (outer : List Frame) (rest : List Token) :
    (name before outer).finish? (fieldTokens fields ++ rest) =
      (afterValue (.object (before.reverse ++ fields)) outer).finish? rest := by
  match fields with
  | [] => exact absurd rfl some
  | [(key, j)] =>
    calc (name before outer).finish? (fieldTokens [(key, j)] ++ rest)
        = (value (.field before key :: outer)).finish? (j.tokens ++ [.closeObject] ++ rest) := rfl
      _ = (value (.field before key :: outer)).finish? (j.tokens ++ .closeObject :: rest) := by
          rw [List.append_assoc, List.singleton_append]
      _ = (afterField ((key, j) :: before) outer).finish? (.closeObject :: rest) :=
        finish?_tokens j (.field before key :: outer) _
      _ = (afterValue (.object ((key, j) :: before).reverse) outer).finish? rest := rfl
      _ = _ := by rw [List.reverse_cons]
  | (key, j) :: field :: fields =>
    calc (name before outer).finish? (fieldTokens ((key, j) :: field :: fields) ++ rest)
        = (value (.field before key :: outer)).finish?
            (j.tokens ++ .comma :: fieldTokens (field :: fields) ++ rest) := rfl
      _ = (value (.field before key :: outer)).finish?
            (j.tokens ++ .comma :: (fieldTokens (field :: fields) ++ rest)) := by
          rw [List.append_assoc, List.cons_append]
      _ = (afterField ((key, j) :: before) outer).finish?
            (.comma :: (fieldTokens (field :: fields) ++ rest)) :=
        finish?_tokens j (.field before key :: outer) _
      _ = (name ((key, j) :: before) outer).finish? (fieldTokens (field :: fields) ++ rest) := rfl
      _ = (afterValue (.object (((key, j) :: before).reverse ++ field :: fields)) outer).finish?
            rest :=
        finish?_fieldTokens (field :: fields) (List.cons_ne_nil field fields) _ outer rest
      _ = _ := by rw [List.reverse_cons, List.append_assoc, List.singleton_append]

end

/-- A text of a value is read as that value. -/
theorem parse?_of_spells {text : List UInt8} {j : Json} (h : Spells text j) :
    parse? text = some j := by
  have value := finish?_tokens j [] []
  rw [List.append_nil] at value
  rw [parse?, all?_of_spells h]
  exact value

end DocIndex.Json
