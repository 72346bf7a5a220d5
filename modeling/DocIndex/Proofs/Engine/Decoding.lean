import DocIndex.Proofs.Engine.Elements

/-!
# Exact decoding

A word describes a slice, and a slice `Shows` a reply if the bytes of its elements stand there and
there are as many as the slice counts. Reading gives a value exactly if the slice shows it
(`text_eq_ok_iff`, `elements_eq_ok_iff`), and fails exactly if the slice does not lie within the
memory, or as a text if its bytes are not UTF-8. What an engine has just emitted is shown by the
word for it (`emit_shows`), so it is read back (`decoding_exact`).
-/

namespace DocIndex

namespace Slice

variable {s : Slice} {memory : Memory} {bytes : List UInt8} {width : Nat} {f : Fault}

/-- Whether the bytes stand where the slice starts. -/
def Holds (s : Slice) (memory : Memory) (bytes : List UInt8) : Prop :=
  ∃ front back, memory = front ++ bytes ++ back ∧ front.length = s.offset

/-- Whether a slice with elements of the width ends behind the end of the memory. -/
def Past (s : Slice) (width : Nat) (memory : Memory) : Prop :=
  memory.length < s.offset + s.count * width

instance : Decidable (s.Past width memory) :=
  inferInstanceAs (Decidable (_ < _))

/-- Whether the elements of the reply stand at the slice, as many as it counts. -/
def Shows (s : Slice) (memory : Memory) (r : Reply) : Prop :=
  r.elements.1 = s.count ∧ s.Holds memory r.elements.2

/-! ## Bytes -/

theorem bytes_eq_error_iff : s.bytes width memory = .error f ↔
    f = .outOfBounds s.offset (s.count * width) memory.length ∧ s.Past width memory := by
  rw [Slice.bytes, Past]
  split
  · next within => simp [within]
  · next past => simp [Nat.lt_of_not_le past, eq_comm]

theorem bytes_eq_ok_iff : s.bytes width memory = .ok bytes ↔
    bytes.length = s.count * width ∧ s.Holds memory bytes := by
  rw [Slice.bytes]
  constructor
  · intro h
    split at h
    · next within =>
      cases h
      refine ⟨?_, memory.take s.offset, (memory.drop s.offset).drop (s.count * width), ?_, ?_⟩
      · rw [List.length_take, List.length_drop]
        omega
      · rw [List.append_assoc, List.take_append_drop, List.take_append_drop]
      · rw [List.length_take]
        omega
    · cases h
  · rintro ⟨length, front, back, rfl, start⟩
    rw [if_pos (by simp only [List.length_append]; omega), ← start, List.append_assoc,
      List.drop_left, List.take_left' length]

/-! ## Texts -/

theorem text_eq_ok_iff {t : String} : s.text memory = .ok t ↔ s.Shows memory (.text t) := by
  have shows_iff : s.Shows memory (.text t) ↔ s.bytes 1 memory = .ok (Utf8.encode t) := by
    rw [bytes_eq_ok_iff, Nat.mul_one]
    rfl
  rw [shows_iff]
  cases h : s.bytes 1 memory with
  | error f => simp [text, h, bind, Except.bind]
  | ok bytes =>
    rw [text_eq_of_bytes_eq_ok h, Except.ok.injEq, eq_comm (a := bytes), ← Utf8.decode?_eq_some_iff]
    cases Utf8.decode? bytes <;> simp

theorem text_eq_error_iff : s.text memory = .error f ↔
    f = .outOfBounds s.offset s.count memory.length ∧ s.Past 1 memory ∨
    f = .invalidUtf8 ∧ ∃ bytes, bytes.length = s.count ∧ s.Holds memory bytes ∧
      ¬ bytes.toByteArray.IsValidUTF8 := by
  have past_iff : (f = .outOfBounds s.offset s.count memory.length ∧ s.Past 1 memory) ↔
      s.bytes 1 memory = .error f := by
    rw [bytes_eq_error_iff, Nat.mul_one]
  have damaged_iff : (∃ bytes, bytes.length = s.count ∧ s.Holds memory bytes ∧
      ¬ bytes.toByteArray.IsValidUTF8) ↔
      ∃ bytes, s.bytes 1 memory = .ok bytes ∧ Utf8.decode? bytes = none := by
    simp only [bytes_eq_ok_iff, Nat.mul_one, and_assoc, Utf8.decode?_eq_none_iff]
  rw [past_iff, damaged_iff]
  cases h : s.bytes 1 memory with
  | error f' => simp [text, h, bind, Except.bind]
  | ok bytes =>
    rw [text_eq_of_bytes_eq_ok h]
    cases hd : Utf8.decode? bytes <;> simp [hd, eq_comm]

/-! ## Lists -/

section Lists

variable {α : Type} {write : α → List UInt8} {read : List UInt8 → α} {l : List α}

/-- The elements that are read of a slice are those whose bytes stand there. -/
theorem elements_eq_ok_iff {x : Except Fault (List α)} (hw : ∀ a, (write a).length = width)
    (each : ∀ piece : List UInt8, piece.length = width → ∃ a, write a = piece)
    (given : ∀ l, s.bytes width memory = .ok (l.flatMap write) → x = .ok l)
    (failed : ∀ f, s.bytes width memory = .error f → x = .error f) :
    x = .ok l ↔ l.length = s.count ∧ s.Holds memory (l.flatMap write) := by
  constructor
  · intro h
    cases hb : s.bytes width memory with
    | error f => cases h.symm.trans (failed f hb)
    | ok bytes =>
      obtain ⟨long, holds⟩ := bytes_eq_ok_iff.1 hb
      obtain ⟨l', hl, rfl⟩ := LittleEndian.exists_flatMap each long
      cases h.symm.trans (given l' hb)
      exact ⟨hl, holds⟩
  · rintro ⟨hl, holds⟩
    refine given l (bytes_eq_ok_iff.2 ⟨?_, holds⟩)
    simp [List.length_flatMap, hw, List.map_const', hl]

theorem map_chunks_eq_error_iff :
    (s.bytes width memory).map (fun bytes => (LittleEndian.chunks width bytes).map read) =
      .error f ↔
    f = .outOfBounds s.offset (s.count * width) memory.length ∧ s.Past width memory := by
  rw [← bytes_eq_error_iff]
  cases s.bytes width memory <;> simp [Except.map]

end Lists

/-! ## Words -/

theorem words_eq_error_iff : s.words memory = .error f ↔
    f = .outOfBounds s.offset (s.count * 4) memory.length ∧ s.Past 4 memory := by
  rw [words_eq, map_chunks_eq_error_iff]

theorem longWords_eq_error_iff : s.longWords memory = .error f ↔
    f = .outOfBounds s.offset (s.count * 8) memory.length ∧ s.Past 8 memory := by
  rw [longWords_eq, map_chunks_eq_error_iff]

theorem words_eq_ok_iff {l : List UInt32} :
    s.words memory = .ok l ↔ s.Shows memory (.words l) := by
  refine elements_eq_ok_iff (fun _ => LittleEndian.length_toBytes ..) (fun piece length => ?_)
    (fun _ => words_of_bytes) fun f h => words_eq_error_iff.2 (bytes_eq_error_iff.1 h)
  refine ⟨.ofNat (LittleEndian.ofBytes piece), ?_⟩
  rw [UInt32.toNat_ofNat']
  exact LittleEndian.toBytes_ofBytes_mod length

theorem longWords_eq_ok_iff {l : List UInt64} :
    s.longWords memory = .ok l ↔ s.Shows memory (.longWords l) := by
  refine elements_eq_ok_iff (fun _ => LittleEndian.length_toBytes ..) (fun piece length => ?_)
    (fun _ => longWords_of_bytes) fun f h => longWords_eq_error_iff.2 (bytes_eq_error_iff.1 h)
  refine ⟨.ofNat (LittleEndian.ofBytes piece), ?_⟩
  rw [UInt64.toNat_ofNat']
  exact LittleEndian.toBytes_ofBytes_mod length

/-! ## Halves of a word -/

theorem unpack_offset (word : UInt64) : (unpack word).offset = (word &&& 0xFFFFFFFF).toNat := by
  rw [UInt64.toNat_and]
  exact (Nat.and_two_pow_sub_one_eq_mod word.toNat 32).symm

theorem unpack_count (word : UInt64) : (unpack word).count = (word >>> 32).toNat := by
  rw [UInt64.toNat_shiftRight]
  exact (Nat.shiftRight_eq_div_pow word.toNat 32).symm

end Slice

namespace Table

variable {m : Machine Table} {r : Reply}

/-- What was emitted stands where its word says. -/
theorem emit_shows (reach : m.state.staged < 2 ^ 32) (slice : r.width ≠ 0)
    (few : r.elements.1 < 2 ^ 32) :
    (Slice.unpack (emit r m).1).Shows (emit r m).2.memory r := by
  have offset : (m.memory.take m.state.staged).length < 2 ^ 32 :=
    Nat.lt_of_le_of_lt (List.length_take_le ..) reach
  cases r with
  | word value => exact absurd rfl slice
  | _ =>
    simp only [emit]
    rw [Slice.unpack_pack offset, Nat.mod_eq_of_lt few]
    exact ⟨rfl, _, [], (List.append_nil _).symm, rfl⟩

/-- The halves of a word are the offset and the number of elements of a slice, and where it ends is
a number that a word holds. What is read of the slice is a text or a list exactly if its bytes stand
there, with as many elements as the slice counts. Reading fails exactly if the slice ends behind the
end of the memory, and as a text also if its bytes are not UTF-8. What an engine with a staged input
in reach emits is read back from the word for it, whatever the memory was. -/
theorem decoding_exact {word : UInt64} {s : Slice} (unpacked : Slice.unpack word = s)
    (memory : Memory) (reach : m.state.staged < 2 ^ 32) :
    (s.offset = (word &&& 0xFFFFFFFF).toNat ∧ s.count = (word >>> 32).toNat ∧
      s.offset + s.count * 8 < 2 ^ 64) ∧
    ((∀ t, s.text memory = .ok t ↔ s.Shows memory (.text t)) ∧
      ∀ f, s.text memory = .error f ↔
        f = .outOfBounds s.offset s.count memory.length ∧ s.Past 1 memory ∨
        f = .invalidUtf8 ∧ ∃ bytes, bytes.length = s.count ∧ s.Holds memory bytes ∧
          ¬ bytes.toByteArray.IsValidUTF8) ∧
    ((∀ l, s.words memory = .ok l ↔ s.Shows memory (.words l)) ∧
      ∀ f, s.words memory = .error f ↔
        f = .outOfBounds s.offset (s.count * 4) memory.length ∧ s.Past 4 memory) ∧
    ((∀ l, s.longWords memory = .ok l ↔ s.Shows memory (.longWords l)) ∧
      ∀ f, s.longWords memory = .error f ↔
        f = .outOfBounds s.offset (s.count * 8) memory.length ∧ s.Past 8 memory) ∧
    (∀ t, Utf8.Short t →
      (Slice.unpack (emit (.text t) m).1).text (emit (.text t) m).2.memory = .ok t) ∧
    (∀ l, l.length < 2 ^ 32 →
      (Slice.unpack (emit (.words l) m).1).words (emit (.words l) m).2.memory = .ok l) ∧
    ∀ l, l.length < 2 ^ 32 →
      (Slice.unpack (emit (.longWords l) m).1).longWords (emit (.longWords l) m).2.memory =
        .ok l := by
  refine ⟨⟨?_, ?_, ?_⟩, ⟨fun t => Slice.text_eq_ok_iff, fun f => Slice.text_eq_error_iff⟩,
    ⟨fun l => Slice.words_eq_ok_iff, fun f => Slice.words_eq_error_iff⟩,
    ⟨fun l => Slice.longWords_eq_ok_iff, fun f => Slice.longWords_eq_error_iff⟩,
    fun t short => ?_, fun l few => ?_, fun l few => ?_⟩
  · rw [← unpacked, Slice.unpack_offset]
  · rw [← unpacked, Slice.unpack_count]
  · have size : UInt32.size = 2 ^ 32 := rfl
    have whole := word.toNat_lt
    rw [← unpacked, Slice.unpack, size]
    show word.toNat % 2 ^ 32 + word.toNat / 2 ^ 32 * 8 < 2 ^ 64
    omega
  · exact Slice.text_eq_ok_iff.2 (emit_shows reach Nat.one_ne_zero short)
  · exact Slice.words_eq_ok_iff.2 (emit_shows reach (Nat.succ_ne_zero 3) few)
  · exact Slice.longWords_eq_ok_iff.2 (emit_shows reach (Nat.succ_ne_zero 7) few)

/-- A slice without elements is read at the very end of the memory, and none with an element. -/
theorem decoding_exact_at_end : (start {}).state.staged < 2 ^ 32 ∧
    (⟨4, 0⟩ : Slice).text [7, 0, 0, 0] = .ok "" ∧ (⟨4, 0⟩ : Slice).words [7, 0, 0, 0] = .ok [] ∧
    (⟨4, 1⟩ : Slice).words [7, 0, 0, 0] = .error (.outOfBounds 4 4 4) ∧
    (Slice.unpack (emit (.words [7, 9]) (start {})).1).words
      (emit (.words [7, 9]) (start {})).2.memory = .ok [7, 9] := by
  have reach : (start {}).state.staged < 2 ^ 32 := by decide
  have none : Slice.unpack 0x000000004 = ⟨4, 0⟩ := by decide
  have one : Slice.unpack 0x100000004 = ⟨4, 1⟩ := by decide
  obtain ⟨-, ⟨text, -⟩, ⟨words, -⟩, -⟩ := decoding_exact none [7, 0, 0, 0] reach
  obtain ⟨-, -, ⟨-, past⟩, -, -, emitted, -⟩ := decoding_exact one [7, 0, 0, 0] reach
  exact ⟨reach, (text _).2 ⟨rfl, [7, 0, 0, 0], [], rfl, rfl⟩,
    (words _).2 ⟨rfl, [7, 0, 0, 0], [], rfl, rfl⟩, (past _).2 ⟨rfl, by decide⟩,
    emitted [7, 9] (by decide)⟩

end Table

end DocIndex
