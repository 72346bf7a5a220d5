import DocIndex.Bytes.LittleEndian
import DocIndex.Bytes.Utf8

/-!
# Self-delimiting binary forms

A `Delimited` type has a binary form that shows where it ends. Numbers take one byte below 251;
a larger one is a marker that tells how many bytes follow, the least significant first. Texts and
lists start with their length, and what may be missing starts with a byte that says whether it is
there.
-/

namespace DocIndex

/-- A type with a binary form that shows where it ends. -/
class Delimited (α : Type) where
  /-- The bytes of a value. -/
  encode : α → List UInt8
  /-- The value that the bytes start with, and what stands behind it. -/
  decode? : List UInt8 → Option (α × List UInt8)

namespace Delimited

/-- The first `n` bytes and what stands behind them. -/
def split? (n : Nat) (s : List UInt8) : Option (List UInt8 × List UInt8) :=
  if n ≤ s.length then some (s.take n, s.drop n) else none

/-- The number in the next `width` bytes, if the form allows so many. -/
def fixed? (width most : Nat) (s : List UInt8) : Option (Nat × List UInt8) :=
  if width ≤ most then (split? width s).map fun (b, r) => (LittleEndian.ofBytes b, r) else none

/-- The bytes of a number below `UInt64.size`. -/
def encodeNat (n : Nat) : List UInt8 :=
  if n < 251 then [UInt8.ofNat n]
  else if n < UInt16.size then 251 :: LittleEndian.toBytes 2 n
  else if n < UInt32.size then 252 :: LittleEndian.toBytes 4 n
  else 253 :: LittleEndian.toBytes 8 n

/-- The number that the bytes start with. More than `most` bytes behind the marker are refused, but
more than the number needs are not. -/
def decodeNat? (most : Nat) : List UInt8 → Option (Nat × List UInt8)
  | [] => none
  | b :: r =>
    if b < 251 then some (b.toNat, r)
    else if b = 251 then fixed? 2 most r
    else if b = 252 then fixed? 4 most r
    else if b = 253 then fixed? 8 most r
    else none

instance : Delimited UInt32 where
  encode n := encodeNat n.toNat
  decode? s := (decodeNat? 4 s).map fun (n, r) => (UInt32.ofNat n, r)

instance : Delimited Bool where
  encode b := [if b then 1 else 0]
  decode?
    | 0 :: r => some (false, r)
    | 1 :: r => some (true, r)
    | _ => none

instance : Delimited String where
  encode s := encodeNat (Utf8.encode s).length ++ Utf8.encode s
  decode? s := do
    let (n, r) ← decodeNat? 8 s
    let (bytes, r) ← split? n r
    return (← Utf8.decode? bytes, r)

instance {α : Type} [Delimited α] : Delimited (Option α) where
  encode
    | none => [0]
    | some a => 1 :: encode a
  decode?
    | 0 :: r => some (none, r)
    | 1 :: r => (decode? r).map fun (a, r) => (some a, r)
    | _ => none

/-- Reads `n` values one behind the other, behind those in `read`, which is backwards. -/
def itemsAfter? {α : Type} [Delimited α] (read : List α) :
    Nat → List UInt8 → Option (List α × List UInt8)
  | 0, s => some (read.reverse, s)
  | n + 1, s =>
    match decode? s with
    | some (a, r) => itemsAfter? (a :: read) n r
    | none => none

instance {α : Type} [Delimited α] : Delimited (List α) where
  encode l := encodeNat l.length ++ l.flatMap encode
  decode? s := do
    let (n, r) ← decodeNat? 8 s
    itemsAfter? [] n r

end Delimited

end DocIndex
