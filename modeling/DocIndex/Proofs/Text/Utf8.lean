import Mathlib.Tactic.IntervalCases
import DocIndex.Bytes.Utf8

/-!
# Reading back UTF-8

Reading the bytes of a text gives the text back: strictly (`decode?_encode`) and with damaged bytes
allowed (`decodeLossy_encode`). The step is one character with anything behind it
(`next_encodeChar`), and the ranges that `lead?` sets for the second byte are met because a
character is no surrogate and takes the shortest form.

Strict reading takes nothing else: where it finds a character, the bytes are those of the character
(`encodeChar_append_of_next`), so bytes are read as a text exactly if they are the bytes of that
text (`decode?_eq_some_iff`).
-/

namespace DocIndex.Utf8

/-- A text whose bytes a packed word can count. -/
def Short (t : String) : Prop :=
  (encode t).length < 2 ^ 32

instance (t : String) : Decidable (Short t) :=
  inferInstanceAs (Decidable (_ < _))

theorem encode_append (a b : String) : encode (a ++ b) = encode a ++ encode b := by
  rw [encode, String.toList_append, List.flatMap_append]
  rfl

theorem Short.of_append {a b : String} (h : Short (a ++ b)) : Short a := by
  rw [Short, encode_append, List.length_append] at h
  exact Nat.lt_of_add_right_lt h

/-- A text whose bytes a word can count. -/
def Counted (t : String) : Prop :=
  (encode t).length < 2 ^ 64

instance (t : String) : Decidable (Counted t) :=
  inferInstanceAs (Decidable (_ < _))

theorem Counted.of_append {a b : String} (h : Counted (a ++ b)) : Counted a := by
  rw [Counted, encode_append, List.length_append] at h
  exact Nat.lt_of_add_right_lt h

theorem Short.counted {t : String} (h : Short t) : Counted t :=
  Nat.lt_trans h (by decide)

theorem toNat_ofNat_of_lt {n : Nat} (h : n < 256) : (UInt8.ofNat n).toNat = n := by
  rw [UInt8.toNat_ofNat', Nat.mod_eq_of_lt h]

/-! ## Leading bytes -/

theorem lead?_one {n : Nat} (h : n < 0x80) : lead? (.ofNat n) = some ⟨n, 0, 0x80, 0xBF⟩ := by
  simp only [lead?, toNat_ofNat_of_lt (show n < 256 by omega), if_pos h]

theorem lead?_two {k : Nat} (low : 2 ≤ k) (high : k < 0x20) :
    lead? (.ofNat (k + 0xC0)) = some ⟨k, 1, 0x80, 0xBF⟩ := by
  interval_cases k <;> rfl

theorem lead?_three {k : Nat} (h : k < 0x10) :
    lead? (.ofNat (k + 0xE0)) =
      some ⟨k, 2, if k = 0 then 0xA0 else 0x80, if k = 13 then 0x9F else 0xBF⟩ := by
  interval_cases k <;> rfl

theorem lead?_four {k : Nat} (h : k < 5) :
    lead? (.ofNat (k + 0xF0)) =
      some ⟨k, 3, if k = 0 then 0x90 else 0x80, if k = 4 then 0x8F else 0xBF⟩ := by
  interval_cases k <;> rfl

theorem lead?_eq_none {n : Nat} (h : n < 0x100) (out : 0x80 ≤ n ∧ n < 0xC2 ∨ 0xF4 < n) :
    lead? (.ofNat n) = none := by
  simp only [lead?, toNat_ofNat_of_lt h]
  rcases out with ⟨low, high⟩ | low
  · rw [if_neg (by omega), if_pos high]
  · iterate 9 rw [if_neg (by omega)]

/-! ## Further bytes -/

theorem continueWith_zero (code low high : Nat) (r : List UInt8) :
    continueWith code 0 low high r = (some code, r) := by
  cases r <;> simp [continueWith]

theorem continueWith_succ {code more low high k : Nat} {r : List UInt8} (small : k < 0x40)
    (above : low ≤ k + 0x80) (below : k + 0x80 ≤ high) :
    continueWith code (more + 1) low high (.ofNat (k + 0x80) :: r) =
      continueWith (code * 64 + k) more 0x80 0xBF r := by
  rw [continueWith, if_neg (Nat.succ_ne_zero more), toNat_ofNat_of_lt (by omega),
    if_pos ⟨above, below⟩, Nat.add_sub_cancel, Nat.add_sub_cancel]

/-! ## Texts -/

theorem next_encodeChar (c : Char) (r : List UInt8) :
    ∃ b bs, encodeChar c = b :: bs ∧ next b (bs ++ r) = (some c, r) := by
  have valid : c.toNat < 0xD800 ∨ 0xDFFF < c.toNat ∧ c.toNat < 0x110000 := c.valid
  have back {n : Nat} (h : n = c.toNat) : ((some n).map Char.ofNat, r) = (some c, r) := by
    rw [h, Option.map_some, Char.ofNat_toNat]
  simp only [encodeChar, String.utf8EncodeChar, show c.val.toNat = c.toNat from rfl]
  split_ifs with h₁ h₂ h₃
  · refine ⟨_, [], rfl, ?_⟩
    simp only [next, lead?_one (show c.toNat < 0x80 by omega), List.nil_append, continueWith_zero]
    exact back rfl
  · refine ⟨_, _, rfl, ?_⟩
    simp only [next, List.cons_append, List.nil_append]
    rw [lead?_two (by omega) (by omega)]
    simp only
    rw [continueWith_succ (by omega) (by omega) (by omega), continueWith_zero]
    exact back (by omega)
  · refine ⟨_, _, rfl, ?_⟩
    simp only [next, List.cons_append, List.nil_append]
    rw [lead?_three (by omega)]
    simp only
    rw [continueWith_succ (by omega) (by split_ifs <;> omega) (by split_ifs <;> omega),
      continueWith_succ (by omega) (by omega) (by omega), continueWith_zero]
    exact back (by omega)
  · refine ⟨_, _, rfl, ?_⟩
    have small : c.toNat / 262144 % 0x08 < 5 := by omega
    simp only [next, List.cons_append, List.nil_append]
    rw [lead?_four small]
    simp only
    rw [continueWith_succ (by omega) (by split_ifs <;> omega) (by split_ifs <;> omega),
      continueWith_succ (by omega) (by omega) (by omega),
      continueWith_succ (by omega) (by omega) (by omega), continueWith_zero]
    exact back (by omega)

theorem encodeChar_of_ascii {c : Char} (h : c.toNat < 0x80) : encodeChar c = [.ofNat c.toNat] := by
  have one : c.val.toNat ≤ 0x7F := Nat.le_of_lt_succ h
  simp only [encodeChar, String.utf8EncodeChar, if_pos one]
  rfl

/-- Only characters of one byte have small bytes. -/
theorem le_of_mem_encodeChar {c : Char} (h : 0x80 ≤ c.toNat) {b : UInt8} (hb : b ∈ encodeChar c) :
    0x80 ≤ b.toNat := by
  simp only [encodeChar, String.utf8EncodeChar] at hb
  split_ifs at hb with one
  · exact absurd (Nat.lt_succ_of_le one) (Nat.not_lt_of_le h)
  all_goals
    simp only [List.mem_cons, List.not_mem_nil, or_false] at hb
    rcases hb with rfl | rfl | rfl | rfl
  all_goals
    rw [toNat_ofNat_of_lt (by omega)]
    exact Nat.le_trans (by decide) (Nat.le_add_left _ _)

theorem charsAfter_encode (read : List (Option Char)) (l : List Char) :
    charsAfter read (l.flatMap encodeChar) = read.reverse ++ l.map some := by
  induction l generalizing read with
  | nil => simp [charsAfter]
  | cons c l ih =>
    obtain ⟨b, bs, hc, hn⟩ := next_encodeChar c (l.flatMap encodeChar)
    rw [List.flatMap_cons, hc, List.cons_append, charsAfter, hn, ih]
    simp

theorem chars_encode (t : String) : chars (encode t) = t.toList.map some := by
  rw [chars, encode, charsAfter_encode, List.reverse_nil, List.nil_append]

theorem mapM_id_eq_some_iff {l : List (Option Char)} {cs : List Char} :
    l.mapM id = some cs ↔ l = cs.map some := by
  induction l generalizing cs with
  | nil => cases cs <;> simp
  | cons c l ih =>
    cases c with
    | none => cases cs <;> simp
    | some c =>
      rw [List.mapM_cons]
      cases cs with
      | nil => cases l.mapM id <;> simp
      | cons d cs => simp [Option.bind_eq_some_iff, ih, and_comm]

theorem decode?_encode (t : String) : decode? (encode t) = some t := by
  rw [decode?, chars_encode, mapM_id_eq_some_iff.2 rfl, Option.map_some, String.ofList_toList]

theorem decodeLossy_encode (t : String) : decodeLossy (encode t) = t := by
  rw [decodeLossy, chars_encode, List.map_map]
  simp [Function.comp_def]

/-! ## Strictness -/

section

variable {b : UInt8} {r rest : List UInt8} {c : Char} {n i j k l : Nat}

theorem continueWith_eq_some {code more low high : Nat} (above : 0x80 ≤ low) (below : high ≤ 0xBF)
    (h : continueWith code (more + 1) low high r = (some n, rest)) :
    ∃ k r', k < 0x40 ∧ low ≤ k + 0x80 ∧ k + 0x80 ≤ high ∧ r = .ofNat (k + 0x80) :: r' ∧
      continueWith (code * 64 + k) more 0x80 0xBF r' = (some n, rest) := by
  cases r with
  | nil => simp [continueWith] at h
  | cons b r =>
    rw [continueWith, if_neg (Nat.succ_ne_zero more)] at h
    split_ifs at h with range
    · have back : b.toNat - 0x80 + 0x80 = b.toNat := by omega
      refine ⟨b.toNat - 0x80, r, by omega, by omega, by omega, ?_, h⟩
      rw [back, UInt8.ofNat_toNat]
    · cases h

theorem toNat_ofNat_of_valid (valid : n.isValidChar) : (Char.ofNat n).toNat = n := by
  rw [Char.ofNat, dif_pos valid]
  rfl

theorem encodeChar_ofNat_one (h : n < 0x80) : encodeChar (.ofNat n) = [.ofNat n] := by
  have back := toNat_ofNat_of_valid (n := n) (.inl (by omega))
  rw [encodeChar_of_ascii] <;> rw [back]
  exact h

theorem encodeChar_ofNat_two (low : 2 ≤ i) (hi : i < 0x20) (hj : j < 0x40) :
    encodeChar (.ofNat (i * 64 + j)) = [.ofNat (i + 0xC0), .ofNat (j + 0x80)] := by
  have back := toNat_ofNat_of_valid (n := i * 64 + j) (.inl (by omega))
  simp only [encodeChar, String.utf8EncodeChar, Char.toNat_val, back]
  rw [if_neg (by omega), if_pos (by omega)]
  congr 3 <;> omega

theorem encodeChar_ofNat_three (hi : i < 0x10) (hj : j < 0x40) (hk : k < 0x40)
    (long : 0x800 ≤ (i * 64 + j) * 64 + k)
    (whole : (i * 64 + j) * 64 + k < 0xD800 ∨ 0xDFFF < (i * 64 + j) * 64 + k) :
    encodeChar (.ofNat ((i * 64 + j) * 64 + k)) =
      [.ofNat (i + 0xE0), .ofNat (j + 0x80), .ofNat (k + 0x80)] := by
  have back := toNat_ofNat_of_valid (n := (i * 64 + j) * 64 + k)
    (whole.imp id fun above => ⟨above, by omega⟩)
  simp only [encodeChar, String.utf8EncodeChar, Char.toNat_val, back]
  rw [if_neg (by omega), if_neg (by omega), if_pos (by omega)]
  congr 4 <;> omega

theorem encodeChar_ofNat_four (hj : j < 0x40) (hk : k < 0x40)
    (hl : l < 0x40) (long : 0x10000 ≤ ((i * 64 + j) * 64 + k) * 64 + l)
    (small : ((i * 64 + j) * 64 + k) * 64 + l < 0x110000) :
    encodeChar (.ofNat (((i * 64 + j) * 64 + k) * 64 + l)) =
      [.ofNat (i + 0xF0), .ofNat (j + 0x80), .ofNat (k + 0x80), .ofNat (l + 0x80)] := by
  have back := toNat_ofNat_of_valid (n := ((i * 64 + j) * 64 + k) * 64 + l)
    (.inr ⟨by omega, small⟩)
  simp only [encodeChar, String.utf8EncodeChar, Char.toNat_val, back]
  rw [if_neg (by omega), if_neg (by omega), if_neg (by omega)]
  congr 5 <;> omega

theorem exists_continueWith_of_next {share more low high : Nat}
    (lead : lead? b = some ⟨share, more, low, high⟩) (h : next b r = (some c, rest)) :
    ∃ n, continueWith share more low high r = (some n, rest) ∧ .ofNat n = c := by
  rw [next, lead] at h
  simp only [Prod.mk.injEq, Option.map_eq_some_iff] at h
  obtain ⟨⟨n, hn, hc⟩, hr⟩ := h
  exact ⟨n, Prod.ext hn hr, hc⟩

/-- A character that is read was written there, in its one form. -/
theorem encodeChar_append_of_next (h : next b r = (some c, rest)) :
    encodeChar c ++ rest = b :: r := by
  obtain ⟨n, small, rfl⟩ : ∃ n, n < 0x100 ∧ b = .ofNat n :=
    ⟨b.toNat, b.toNat_lt, b.ofNat_toNat.symm⟩
  by_cases damaged : 0x80 ≤ n ∧ n < 0xC2 ∨ 0xF4 < n
  · rw [next, lead?_eq_none small damaged] at h
    cases h
  by_cases one : n < 0x80
  · obtain ⟨m, h₁, rfl⟩ := exists_continueWith_of_next (lead?_one one) h
    cases (continueWith_zero ..).symm.trans h₁
    rw [encodeChar_ofNat_one one]
    rfl
  by_cases two : n < 0xE0
  · obtain ⟨i, rfl⟩ : ∃ i, n = i + 0xC0 := ⟨n - 0xC0, by omega⟩
    obtain ⟨m, h₁, rfl⟩ := exists_continueWith_of_next (lead?_two (by omega) (by omega)) h
    obtain ⟨j, r₁, hj, -, -, rfl, h₂⟩ := continueWith_eq_some (by omega) (by omega) h₁
    cases (continueWith_zero ..).symm.trans h₂
    rw [encodeChar_ofNat_two (by omega) (by omega) hj]
    rfl
  by_cases three : n < 0xF0
  · obtain ⟨i, rfl⟩ : ∃ i, n = i + 0xE0 := ⟨n - 0xE0, by omega⟩
    obtain ⟨m, h₁, rfl⟩ := exists_continueWith_of_next (lead?_three (by omega)) h
    obtain ⟨j, r₁, hj, above, below, rfl, h₂⟩ :=
      continueWith_eq_some (by split_ifs <;> omega) (by split_ifs <;> omega) h₁
    obtain ⟨k, r₂, hk, -, -, rfl, h₃⟩ := continueWith_eq_some (by omega) (by omega) h₂
    cases (continueWith_zero ..).symm.trans h₃
    rw [encodeChar_ofNat_three (by omega) hj hk (by split_ifs at above <;> omega)
      (by split_ifs at below <;> omega)]
    rfl
  · obtain ⟨i, rfl⟩ : ∃ i, n = i + 0xF0 := ⟨n - 0xF0, by omega⟩
    obtain ⟨m, h₁, rfl⟩ := exists_continueWith_of_next (lead?_four (by omega)) h
    obtain ⟨j, r₁, hj, above, below, rfl, h₂⟩ :=
      continueWith_eq_some (by split_ifs <;> omega) (by split_ifs <;> omega) h₁
    obtain ⟨k, r₂, hk, -, -, rfl, h₃⟩ := continueWith_eq_some (by omega) (by omega) h₂
    obtain ⟨l, r₃, hl, -, -, rfl, h₄⟩ := continueWith_eq_some (by omega) (by omega) h₃
    cases (continueWith_zero ..).symm.trans h₄
    rw [encodeChar_ofNat_four hj hk hl (by split_ifs at above <;> omega)
      (by split_ifs at below <;> omega)]
    rfl

/-- Bytes that are read without damage are those of the characters that are read. -/
theorem exists_of_charsAfter_eq {read : List (Option Char)} {bytes : List UInt8} {cs : List Char}
    (h : charsAfter read bytes = cs.map some) :
    ∃ l : List Char, cs.map some = read.reverse ++ l.map some ∧ l.flatMap encodeChar = bytes := by
  fun_induction charsAfter read bytes with
  | case1 read => exact ⟨[], by simp [h], rfl⟩
  | case2 read b r ih =>
    obtain ⟨l, hl, written⟩ := ih h
    have mem : (next b r).1 ∈ cs.map some := by simp [hl]
    obtain ⟨c, -, hc⟩ := List.mem_map.1 mem
    refine ⟨c :: l, ?_, ?_⟩
    · rw [hl, ← hc]
      simp
    · rw [List.flatMap_cons, written]
      exact encodeChar_append_of_next (Prod.ext hc.symm rfl)

/-- Bytes are read as a text exactly if they are the bytes of that text. -/
theorem decode?_eq_some_iff {bytes : List UInt8} {t : String} :
    decode? bytes = some t ↔ encode t = bytes := by
  constructor
  · intro h
    obtain ⟨cs, all, rfl⟩ := Option.map_eq_some_iff.1 h
    obtain ⟨l, hl, written⟩ := exists_of_charsAfter_eq (mapM_id_eq_some_iff.1 all)
    have same : cs = l := List.map_inj_right (fun _ _ => Option.some.inj) |>.1 hl
    rw [encode, String.toList_ofList, same, written]
  · rintro rfl
    exact decode?_encode t

end

theorem isValidUTF8_iff {bytes : List UInt8} :
    bytes.toByteArray.IsValidUTF8 ↔ ∃ t, encode t = bytes := by
  constructor
  · rintro ⟨cs, h⟩
    have same := congrArg (·.data.toList) h
    exact ⟨.ofList cs, by simpa [encode, List.utf8Encode] using same.symm⟩
  · rintro ⟨t, rfl⟩
    exact .intro t.toList rfl

/-- Bytes are read as some text exactly if they are valid. -/
theorem decode?_eq_none_iff {bytes : List UInt8} :
    decode? bytes = none ↔ ¬ bytes.toByteArray.IsValidUTF8 := by
  rw [isValidUTF8_iff, Option.eq_none_iff_forall_ne_some, not_exists]
  exact forall_congr' fun t => not_congr decode?_eq_some_iff

end DocIndex.Utf8
