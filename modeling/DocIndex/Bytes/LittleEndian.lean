/-!
# Little-endian numbers

`toBytes` and `ofBytes` write and read natural numbers as bytes with the least significant first,
and `chunks` cuts a list of bytes into numbers of one width.
-/

namespace DocIndex.LittleEndian

/-- The `width` lowest bytes of a number, the least significant first. -/
def toBytes : (width : Nat) → Nat → List UInt8
  | 0, _ => []
  | width + 1, n => UInt8.ofNat n :: toBytes width (n / 256)

/-- The number whose bytes are given, the least significant first. -/
def ofBytes : List UInt8 → Nat
  | [] => 0
  | b :: bs => b.toNat + 256 * ofBytes bs

/-- The list cut into pieces of `width` elements. A shorter rest is dropped, and pieces of no
elements do not exist. -/
def chunks {α : Type} (width : Nat) (l : List α) : List (List α) :=
  if _ : 0 < width ∧ width ≤ l.length then l.take width :: chunks width (l.drop width) else []
termination_by l.length
decreasing_by simp; omega

@[simp] theorem length_toBytes (width n : Nat) : (toBytes width n).length = width := by
  induction width generalizing n with
  | zero => rfl
  | succ width ih => simp [toBytes, ih]

end DocIndex.LittleEndian
