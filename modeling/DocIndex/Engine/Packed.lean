import DocIndex.Bytes.LittleEndian
import DocIndex.Bytes.Utf8
import DocIndex.Engine.Basic

/-!
# Packed slices

An engine returns texts and lists as slices of its memory. A slice is packed into one word: the low
half is its offset in bytes, the high half its number of elements. Reading one fails if it does not
lie within the memory.
-/

namespace DocIndex

/-- The word with the given halves. Of the high half 32 bits are kept. -/
def halves (high low : UInt64) : UInt64 :=
  (high <<< 32) ||| low

/-- A slice of the memory: where it starts and how many elements it has. -/
structure Slice where
  offset : Nat
  count : Nat
  deriving DecidableEq, Repr

namespace Slice

/-- The slice that a word describes. -/
def unpack (word : UInt64) : Slice :=
  ⟨word.toNat % UInt32.size, word.toNat / UInt32.size⟩

/-- The word that describes a slice. -/
def pack (s : Slice) : UInt64 :=
  halves (.ofNat s.count) (.ofNat s.offset)

/-- The bytes of a slice whose elements are `width` bytes wide. -/
def bytes (s : Slice) (width : Nat) (memory : Memory) : Except Fault (List UInt8) :=
  if s.offset + s.count * width ≤ memory.length then
    .ok ((memory.drop s.offset).take (s.count * width))
  else .error (.outOfBounds s.offset (s.count * width) memory.length)

/-- The text of a slice. -/
def text (s : Slice) (memory : Memory) : Except Fault String := do
  match Utf8.decode? (← s.bytes 1 memory) with
  | some t => return t
  | none => throw .invalidUtf8

/-- The elements of a slice as numbers of `width` bytes. -/
def numbers (s : Slice) (width : Nat) (memory : Memory) : Except Fault (List Nat) := do
  return (LittleEndian.chunks width (← s.bytes width memory)).map LittleEndian.ofBytes

/-- The elements of a slice as 32-bit words. -/
def words (s : Slice) (memory : Memory) : Except Fault (List UInt32) := do
  return (← s.numbers 4 memory).map UInt32.ofNat

/-- The elements of a slice as 64-bit words. -/
def longWords (s : Slice) (memory : Memory) : Except Fault (List UInt64) := do
  return (← s.numbers 8 memory).map UInt64.ofNat

end Slice

end DocIndex
