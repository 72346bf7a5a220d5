import DocIndex.Engine.Packed
import DocIndex.Proofs.Text.Utf8

/-!
# Slices that were just written

A slice is described by one word and read back from it, with its number of elements cut to the half
of a word (`unpack_pack`). Bytes that stand right behind what was in front of them are what such a
slice reads (`bytes_behind`). A text or a list whose bytes are read is read back (`text_of_bytes`,
`words_of_bytes`, `longWords_of_bytes`).
-/

namespace DocIndex

/-! ## Numbers as bytes -/

namespace LittleEndian

/-- Reading a number gives back what was written as far as the width holds it. -/
theorem ofBytes_toBytes (width n : Nat) : ofBytes (toBytes width n) = n % 256 ^ width := by
  induction width generalizing n with
  | zero => simp [toBytes, ofBytes, Nat.mod_one]
  | succ width ih =>
    rw [toBytes, ofBytes, ih, Nat.pow_succ', Nat.mod_mul, UInt8.toNat_ofNat']

theorem ofBytes_lt (bytes : List UInt8) : ofBytes bytes < 256 ^ bytes.length := by
  induction bytes with
  | nil => exact Nat.one_pos
  | cons b bytes ih =>
    have hb : b.toNat < 256 := b.toNat_lt
    rw [ofBytes, List.length_cons, Nat.pow_succ]
    omega

/-- Bytes are those of the number that is read from them. -/
theorem toBytes_ofBytes (bytes : List UInt8) : toBytes bytes.length (ofBytes bytes) = bytes := by
  induction bytes with
  | nil => rfl
  | cons b bytes ih =>
    have hb : b.toNat < 256 := b.toNat_lt
    have low : UInt8.ofNat (b.toNat + 256 * ofBytes bytes) = b := by
      rw [← UInt8.toNat_inj, UInt8.toNat_ofNat']
      omega
    rw [List.length_cons, toBytes, ofBytes, low, Nat.add_mul_div_left _ _ (by decide),
      Nat.div_eq_of_lt hb, Nat.zero_add, ih]

/-- Bytes are those of what a word of their width keeps of the number. -/
theorem toBytes_ofBytes_mod {bytes : List UInt8} {width : Nat} (length : bytes.length = width) :
    toBytes width (ofBytes bytes % 256 ^ width) = bytes := by
  subst length
  rw [Nat.mod_eq_of_lt (ofBytes_lt bytes), toBytes_ofBytes]

section Pieces

variable {α β : Type} {width : Nat} {f : α → List β}

theorem chunks_flatMap (pos : 0 < width) (hf : ∀ a, (f a).length = width)
    (l : List α) : chunks width (l.flatMap f) = l.map f := by
  induction l with
  | nil =>
    rw [List.flatMap_nil, chunks, dif_neg]
    · rfl
    · rintro ⟨-, le⟩
      exact absurd (pos.trans_le le) (Nat.lt_irrefl 0)
  | cons a l ih =>
    have long : width ≤ (f a ++ l.flatMap f).length := by
      rw [List.length_append, hf]
      exact Nat.le_add_right width _
    rw [List.flatMap_cons, chunks, dif_pos ⟨pos, long⟩, List.take_left' (hf a),
      List.drop_left' (hf a), ih, List.map_cons]

/-- Bytes in whole pieces are those of elements, if every piece is. -/
theorem exists_flatMap {bytes : List β} {count : Nat}
    (each : ∀ piece, piece.length = width → ∃ a, f a = piece)
    (length : bytes.length = count * width) :
    ∃ l : List α, l.length = count ∧ l.flatMap f = bytes := by
  induction count generalizing bytes with
  | zero =>
    have none : bytes = [] := by simpa using length
    exact ⟨[], rfl, none.symm⟩
  | succ count ih =>
    rw [Nat.succ_mul] at length
    have shorter : (bytes.drop width).length = count * width := by
      rw [List.length_drop, length, Nat.add_sub_cancel]
    obtain ⟨l, rfl, rest⟩ := ih shorter
    obtain ⟨a, first⟩ := each (bytes.take width) (by rw [List.length_take]; omega)
    exact ⟨a :: l, rfl, by rw [List.flatMap_cons, first, rest, List.take_append_drop]⟩

end Pieces

end LittleEndian

/-! ## Slices and their bytes -/

/-- Halves that do not overlap add up. -/
theorem toNat_halves {low : Nat} (small : low < 2 ^ 32) (high : UInt64) :
    (halves high (.ofNat low)).toNat = high.toNat % 2 ^ 32 * 2 ^ 32 + low := by
  have kept : (UInt64.ofNat low).toNat = low := by
    rw [UInt64.toNat_ofNat', Nat.mod_eq_of_lt (by omega)]
  have shifted : (high <<< 32).toNat = (high.toNat % 2 ^ 32) <<< 32 := by
    rw [UInt64.toNat_shiftLeft, Nat.shiftLeft_eq, Nat.shiftLeft_eq]
    exact Nat.mul_mod_mul_right (2 ^ 32) high.toNat (2 ^ 32)
  rw [halves, UInt64.toNat_or, shifted, kept, ← Nat.shiftLeft_add_eq_or_of_lt small,
    Nat.shiftLeft_eq]

namespace Slice

theorem unpack_pack {s : Slice} (offset : s.offset < 2 ^ 32) :
    unpack s.pack = ⟨s.offset, s.count % 2 ^ 32⟩ := by
  have size : UInt32.size = 2 ^ 32 := rfl
  have count : (UInt64.ofNat s.count).toNat % 2 ^ 32 = s.count % 2 ^ 32 := by
    rw [UInt64.toNat_ofNat']
    omega
  have word : s.pack.toNat = s.count % 2 ^ 32 * 2 ^ 32 + s.offset := by
    rw [pack, toNat_halves offset, count]
  have low : (s.count % 2 ^ 32 * 2 ^ 32 + s.offset) % 2 ^ 32 = s.offset := by omega
  have high : (s.count % 2 ^ 32 * 2 ^ 32 + s.offset) / 2 ^ 32 = s.count % 2 ^ 32 := by omega
  rw [unpack, word, size, low, high]

theorem bytes_behind {front bytes : List UInt8} {count width : Nat}
    (h : count * width ≤ bytes.length) :
    (⟨front.length, count⟩ : Slice).bytes width (front ++ bytes) =
      .ok (bytes.take (count * width)) := by
  rw [Slice.bytes, if_pos (by rw [List.length_append]; exact Nat.add_le_add_left h _),
    List.drop_left]

/-- Whether what is read of a slice is decided by its bytes. -/
def Reads {α : Type} (read : Slice → Memory → Except Fault α) (width : Nat) : Prop :=
  ∀ {s s' : Slice} {memory memory' : Memory}, s.bytes width memory = s'.bytes width memory' →
    read s memory = read s' memory'

theorem reads_text : Reads text 1 := by
  intro s s' memory memory' h
  rw [text, text, h]

theorem reads_words : Reads words 4 := by
  intro s s' memory memory' h
  rw [words, words, numbers, numbers, h]

theorem reads_longWords : Reads longWords 8 := by
  intro s s' memory memory' h
  rw [longWords, longWords, numbers, numbers, h]

/-! ## What is read of bytes -/

variable {s : Slice} {memory : Memory} {bytes : List UInt8} {width : Nat}

theorem text_eq_of_bytes_eq_ok (h : s.bytes 1 memory = .ok bytes) :
    s.text memory = (Utf8.decode? bytes).elim (.error .invalidUtf8) .ok := by
  rw [text, h]
  cases hd : Utf8.decode? bytes with
  | some t => simp only [bind, Except.bind, hd]; rfl
  | none => simp only [bind, Except.bind, hd]; rfl

theorem text_of_bytes {t : String} (h : s.bytes 1 memory = .ok (Utf8.encode t)) :
    s.text memory = .ok t := by
  rw [text_eq_of_bytes_eq_ok h, Utf8.decode?_encode]
  rfl

theorem map_chunks_of_bytes {α : Type} {write : α → List UInt8} {read : List UInt8 → α}
    {l : List α} (pos : 0 < width) (hw : ∀ a, (write a).length = width)
    (back : ∀ a, read (write a) = a) (h : s.bytes width memory = .ok (l.flatMap write)) :
    (s.bytes width memory).map (fun bytes => (LittleEndian.chunks width bytes).map read) =
      .ok l := by
  rw [h, Except.map, LittleEndian.chunks_flatMap pos hw, List.map_map]
  exact congrArg Except.ok ((List.map_congr_left fun a _ => back a).trans (List.map_id' l))

theorem words_eq : s.words memory = (s.bytes 4 memory).map fun bytes =>
    (LittleEndian.chunks 4 bytes).map fun piece => UInt32.ofNat (LittleEndian.ofBytes piece) := by
  rw [words, numbers]
  cases s.bytes 4 memory with
  | error f => rfl
  | ok bytes => exact congrArg Except.ok (List.map_map ..)

theorem longWords_eq : s.longWords memory = (s.bytes 8 memory).map fun bytes =>
    (LittleEndian.chunks 8 bytes).map fun piece => UInt64.ofNat (LittleEndian.ofBytes piece) := by
  rw [longWords, numbers]
  cases s.bytes 8 memory with
  | error f => rfl
  | ok bytes => exact congrArg Except.ok (List.map_map ..)

theorem words_of_bytes {l : List UInt32}
    (h : s.bytes 4 memory = .ok (l.flatMap fun w => LittleEndian.toBytes 4 w.toNat)) :
    s.words memory = .ok l := by
  rw [words_eq]
  refine map_chunks_of_bytes (by decide) (fun _ => LittleEndian.length_toBytes ..) (fun w => ?_) h
  have small : w.toNat < 256 ^ 4 := w.toNat_lt
  rw [LittleEndian.ofBytes_toBytes, Nat.mod_eq_of_lt small, UInt32.ofNat_toNat]

theorem longWords_of_bytes {l : List UInt64}
    (h : s.bytes 8 memory = .ok (l.flatMap fun w => LittleEndian.toBytes 8 w.toNat)) :
    s.longWords memory = .ok l := by
  rw [longWords_eq]
  refine map_chunks_of_bytes (by decide) (fun _ => LittleEndian.length_toBytes ..) (fun w => ?_) h
  have small : w.toNat < 256 ^ 8 := w.toNat_lt
  rw [LittleEndian.ofBytes_toBytes, Nat.mod_eq_of_lt small, UInt64.ofNat_toNat]

end Slice

end DocIndex
