import DocIndex.Proofs.Engine.Alike

/-!
# Lists that come back

A list is written as its elements one behind the other. The word that describes it counts its
elements with one half, so what comes back of a longer list is only the front that is left of the
count (`Slice.kept`).
-/

namespace DocIndex

theorem take_flatMap {α β : Type} {width : Nat} {f : α → List β}
    (hf : ∀ a, (f a).length = width) (l : List α) (n : Nat) :
    (l.flatMap f).take (n * width) = (l.take n).flatMap f := by
  induction l generalizing n with
  | nil => simp
  | cons a l ih =>
    cases n with
    | zero => simp
    | succ n =>
      have front : (f a).take ((n + 1) * width) = f a := by
        refine List.take_of_length_le ?_
        rw [hf, Nat.succ_mul]
        exact Nat.le_add_left width _
      have rest : (n + 1) * width - (f a).length = n * width := by
        rw [hf, Nat.succ_mul, Nat.add_sub_cancel]
      rw [List.flatMap_cons, List.take_append, front, rest, ih, List.take_succ_cons,
        List.flatMap_cons]

/-! ## What is left of a list -/

/-- What comes back of a list: all of it, if half a word can count its elements. -/
def Slice.kept {α : Type} (l : List α) : List α :=
  l.take (l.length % 2 ^ 32)

theorem Slice.kept_eq_self {α : Type} {l : List α} (h : l.length < 2 ^ 32) : kept l = l := by
  rw [kept, Nat.mod_eq_of_lt h, List.take_length]

theorem Slice.mem_of_mem_kept {α : Type} {l : List α} {a : α} (h : a ∈ kept l) : a ∈ l :=
  List.mem_of_mem_take h

namespace Table

/-- Whether a reply is read as the value wherever it stands behind a staged input. -/
def ReadsBack {α : Type} (read : Slice → Memory → Except Fault α) (r : Reply) (a : α) : Prop :=
  ∀ ⦃s m⦄, Serves s m → read (.unpack (emit r m).1) (emit r m).2.memory = .ok a

theorem readsBack_text {t : String} (short : Utf8.Short t) :
    ReadsBack Slice.text (.text t) t := by
  intro s m serves
  have slice : Reply.width (.text t) ≠ 0 := Nat.one_ne_zero
  refine Slice.text_of_bytes ((bytes_emit serves.staged_lt slice).trans ?_)
  have count : (Utf8.encode t).length < 2 ^ 32 := short
  simp only [Reply.elements, Reply.width]
  rw [Nat.mod_eq_of_lt count, Nat.mul_one, List.take_length]

theorem readsBack_words (l : List UInt32) :
    ReadsBack Slice.words (.words l) (Slice.kept l) := by
  intro s m serves
  have slice : Reply.width (.words l) ≠ 0 := Nat.succ_ne_zero 3
  refine Slice.words_of_bytes ((bytes_emit serves.staged_lt slice).trans ?_)
  exact congrArg Except.ok (take_flatMap (fun _ => LittleEndian.length_toBytes ..) l _)

theorem readsBack_longWords (l : List UInt64) :
    ReadsBack Slice.longWords (.longWords l) (Slice.kept l) := by
  intro s m serves
  have slice : Reply.width (.longWords l) ≠ 0 := Nat.succ_ne_zero 7
  refine Slice.longWords_of_bytes ((bytes_emit serves.staged_lt slice).trans ?_)
  exact congrArg Except.ok (take_flatMap (fun _ => LittleEndian.length_toBytes ..) l _)

end Table

end DocIndex
