import DocIndex.Proofs.Text.Utf8

/-!
# The order of texts

Texts stand in the order of their bytes (`encode_lt_encode`). The bytes of a character are the
digits of its code point to the base 64 with the number of further bytes in the first one, so the
character with the smaller code point has the smaller byte at the first place where they differ,
whatever stands behind them.
-/

namespace DocIndex.Utf8

variable {j k : Nat} {x y : List UInt8} {a b : Char}

theorem cons_lt_cons_ofNat (hj : j < 256) (hk : k < 256) :
    UInt8.ofNat j :: x < UInt8.ofNat k :: y ↔ j < k ∨ j = k ∧ x < y := by
  rw [List.cons_lt_cons_iff, UInt8.ofNat_lt_iff_lt hj hk, ← UInt8.toNat_inj,
    toNat_ofNat_of_lt hj, toNat_ofNat_of_lt hk]

/-- The digits of a number to the base 64, from the fourth last on. -/
theorem digits_lt {m n : Nat} (h : m < n) : m / 262144 < n / 262144 ∨ m / 262144 = n / 262144 ∧
    (m / 4096 % 64 < n / 4096 % 64 ∨ m / 4096 % 64 = n / 4096 % 64 ∧
      (m / 64 % 64 < n / 64 % 64 ∨ m / 64 % 64 = n / 64 % 64 ∧ m % 64 < n % 64)) := by
  have second (k : Nat) : k / 4096 = k / 64 / 64 := (Nat.div_div_eq_div_mul k 64 64).symm
  have first (k : Nat) : k / 262144 = k / 64 / 64 / 64 := by
    rw [Nat.div_div_eq_div_mul, Nat.div_div_eq_div_mul]
  rw [first, first, second, second]
  omega

theorem encodeChar_append_lt (h : a < b) : encodeChar a ++ x < encodeChar b ++ y := by
  have lt : a.toNat < b.toNat := h
  have hb : b.toNat < 0xD800 ∨ 0xDFFF < b.toNat ∧ b.toNat < 0x110000 := b.valid
  have digits := digits_lt lt
  have top {n : Nat} (hn : n < 0x110000) : n / 262144 % 8 = n / 262144 := by omega
  have topa := top (show a.toNat < 0x110000 by omega)
  have topb := top (show b.toNat < 0x110000 by omega)
  simp only [encodeChar, String.utf8EncodeChar, show a.val.toNat = a.toNat from rfl,
    show b.val.toNat = b.toNat from rfl]
  -- a character with more bytes has the greater first byte
  split_ifs <;> first
    | omega
    | (simp (disch := omega) only [List.cons_append, List.nil_append, cons_lt_cons_ofNat]
       omega)

theorem flatMap_encodeChar_lt {l l' : List Char} (h : l < l') :
    l.flatMap encodeChar < l'.flatMap encodeChar := by
  induction h with
  | nil =>
    rename_i c l
    obtain ⟨b, bs, hc, -⟩ := next_encodeChar c []
    rw [List.flatMap_nil, List.flatMap_cons, hc]
    exact .nil
  | rel h => exact encodeChar_append_lt h
  | cons h ih => exact List.append_left_lt ih

/-- Texts in the order of their code points are in the order of their bytes. -/
theorem encode_lt_encode {s t : String} (h : s < t) : encode s < encode t :=
  flatMap_encodeChar_lt h

end DocIndex.Utf8
