import DocIndex.Bytes.Delimited
import DocIndex.Proofs.Engine.Slice

/-!
# Reading back binary forms

A reader takes a value from the front of some bytes. It `Restores` a value from its binary form if
it gives it back with whatever stands behind the form, and it is `Stable` if bytes behind those that
it reads change nothing but what is left. Both have a rule for each step of a reader, so what is
read in several steps is restored if its parts are. A stable reader that restores a value fails on
every cut of its form (`eq_none_of_cut`).
-/

namespace DocIndex.Delimited

/-- A reader of values: the value that the bytes start with, and what stands behind it. -/
abbrev Reader (α : Type) := List UInt8 → Option (α × List UInt8)

variable {α β : Type}

/-- Whether the reader gives the value for the bytes, whatever stands behind them. -/
def Restores (f : Reader α) (bytes : List UInt8) (a : α) : Prop :=
  ∀ t, f (bytes ++ t) = some (a, t)

/-- Whether what stands behind the bytes that are read is only left over. -/
def Stable (f : Reader α) : Prop :=
  ∀ s t a r, f s = some (a, r) → f (s ++ t) = some (a, r ++ t)

/-! ## Rules -/

theorem Restores.bind {f : Reader α} {g : α × List UInt8 → Option (β × List UInt8)}
    {bytes bytes' : List UInt8} {a : α} {b : β} (hf : Restores f bytes a)
    (hg : Restores (fun s => g (a, s)) bytes' b) :
    Restores (fun s => f s >>= g) (bytes ++ bytes') b := by
  intro t
  have first := hf (bytes' ++ t)
  have second := hg t
  simp only [List.append_assoc, first]
  exact second

/-- The last step of a reader that goes on with what it has read. -/
theorem Restores.last {f : Reader α} {g : α × List UInt8 → Option (β × List UInt8)}
    {bytes : List UInt8} {a : α} {b : β} (hf : Restores f bytes a)
    (hg : ∀ s, g (a, s) = some (b, s)) : Restores (fun s => f s >>= g) bytes b := by
  intro t
  have first := hf t
  simp only [first]
  exact hg t

theorem stable_pure (a : α) : Stable fun s => some (a, s) := by
  rintro s t _ _ ⟨⟩
  rfl

theorem Stable.bind {f : Reader α} {g : α × List UInt8 → Option (β × List UInt8)}
    (hf : Stable f) (hg : ∀ a, Stable fun s => g (a, s)) : Stable fun s => f s >>= g := by
  intro s t b r read
  obtain ⟨⟨a, s'⟩, first, second⟩ := Option.bind_eq_some_iff.1 read
  have first' := hf s t a s' first
  have second' := hg a s' t b r second
  simp only [first']
  exact second'

theorem Restores.map {f : Reader α} {bytes : List UInt8} {a : α} (hf : Restores f bytes a)
    (g : α → β) : Restores (fun s => (f s).map fun (a, r) => (g a, r)) bytes (g a) := by
  intro t
  simp only [hf t, Option.map_some]

theorem Stable.map {f : Reader α} (hf : Stable f) (g : α → β) :
    Stable fun s => (f s).map fun (a, r) => (g a, r) := by
  intro s t b r read
  obtain ⟨⟨a, r'⟩, first, same⟩ := Option.map_eq_some_iff.1 read
  cases same
  simp only [hf s t a r first, Option.map_some]

/-- A step that reads nothing and may fail. -/
theorem stable_of_option (found : Option α) : Stable fun s => do return (← found, s) := by
  intro s t a r read
  obtain ⟨b, rfl, same⟩ := Option.bind_eq_some_iff.1 read
  cases same
  rfl

/-- Every cut of a form that a stable reader restores is refused. -/
theorem Stable.eq_none_of_cut {f : Reader α} {bytes p : List UInt8} {a : α} (stable : Stable f)
    (restores : Restores f bytes a) (front : p <+: bytes) (cut : p ≠ bytes) : f p = none := by
  obtain ⟨q, rfl⟩ := front
  cases read : f p with
  | none => rfl
  | some found =>
    obtain ⟨b, r⟩ := found
    have whole := stable p q b r read
    rw [← List.append_nil (p ++ q), restores []] at whole
    have nothing : r ++ q = [] := (Prod.mk.inj (Option.some.inj whole)).2.symm
    rw [(List.append_eq_nil_iff.1 nothing).2, List.append_nil] at cut
    exact absurd rfl cut

/-! ## Numbers -/

theorem split?_append {bytes t : List UInt8} {n : Nat} (length : bytes.length = n) :
    split? n (bytes ++ t) = some (bytes, t) := by
  rw [split?, if_pos (by rw [List.length_append, length]; exact Nat.le_add_right n _),
    List.take_left' length, List.drop_left' length]

theorem stable_split? (n : Nat) : Stable (split? n) := by
  intro s t a r read
  rw [split?] at read
  split_ifs at read with long
  cases read
  have longer : n ≤ (s ++ t).length := by
    rw [List.length_append]
    exact Nat.le_add_right_of_le long
  rw [split?, if_pos longer, List.take_append_of_le_length long, List.drop_append_of_le_length long]

theorem fixed?_toBytes {width most n : Nat} (allowed : width ≤ most) (fits : n < 256 ^ width)
    (t : List UInt8) : fixed? width most (LittleEndian.toBytes width n ++ t) = some (n, t) := by
  rw [fixed?, if_pos allowed, split?_append (LittleEndian.length_toBytes width n), Option.map_some]
  simp only [LittleEndian.ofBytes_toBytes, Nat.mod_eq_of_lt fits]

theorem stable_fixed? (width most : Nat) : Stable (fixed? width most) := by
  intro s t a r read
  rw [fixed?] at read ⊢
  split_ifs at read ⊢
  obtain ⟨⟨bytes, r'⟩, first, same⟩ := Option.map_eq_some_iff.1 read
  cases same
  rw [stable_split? width s t bytes r first, Option.map_some]

/-- A number is restored if as many bytes are allowed as it needs. -/
theorem restores_encodeNat {n most : Nat} (small : n < 2 ^ 64) (word : 4 ≤ most)
    (long : 2 ^ 32 ≤ n → 8 ≤ most) : Restores (decodeNat? most) (encodeNat n) n := by
  intro t
  have size₁₆ : UInt16.size = 256 ^ 2 := rfl
  have size₃₂ : UInt32.size = 256 ^ 4 := rfl
  rw [encodeNat, size₁₆, size₃₂]
  split_ifs with one two four
  · have same : (UInt8.ofNat n).toNat = n := Utf8.toNat_ofNat_of_lt (by omega)
    have below : UInt8.ofNat n < 251 := UInt8.lt_iff_toNat_lt.2 (by rw [same]; exact one)
    simp only [List.cons_append, List.nil_append, decodeNat?, if_pos below, same]
  · exact fixed?_toBytes (by omega) two t
  · exact fixed?_toBytes word four t
  · exact fixed?_toBytes (long (by omega)) (by omega) t

theorem stable_decodeNat? (most : Nat) : Stable (decodeNat? most) := by
  rintro (_ | ⟨b, s⟩) t a r read
  · cases read
  · rw [List.cons_append, decodeNat?] at *
    split_ifs at *
    · cases read
      rfl
    · exact stable_fixed? 2 most s t a r read
    · exact stable_fixed? 4 most s t a r read
    · exact stable_fixed? 8 most s t a r read

/-! ## Types -/

/-- A type whose values are read without a look at what stands behind them. -/
class Definite (α : Type) [Delimited α] : Prop where
  stable : Stable (decode? : Reader α)

/-- Whether the value is read back from its form. -/
def Restored [Delimited α] (a : α) : Prop :=
  Restores decode? (encode a) a

theorem restored_word (n : UInt32) : Restored n := by
  have small : n.toNat < 2 ^ 32 := n.toNat_lt
  have number : Restores (decodeNat? 4) (encodeNat n.toNat) n.toNat :=
    restores_encodeNat (by omega) le_rfl fun long => absurd small (by omega)
  have word := number.map UInt32.ofNat
  rwa [UInt32.ofNat_toNat] at word

instance : Definite UInt32 where
  stable := (stable_decodeNat? 4).map UInt32.ofNat

theorem restored_bool (b : Bool) : Restored b := by
  cases b <;> exact fun _ => rfl

instance : Definite Bool where
  stable := by
    intro s t a r read
    simp only [decode?] at read
    split at read
    · cases read
      rfl
    · cases read
      rfl
    · cases read

theorem restores_length {n : Nat} (counted : n < 2 ^ 64) :
    Restores (decodeNat? 8) (encodeNat n) n :=
  restores_encodeNat counted (by decide) fun _ => le_rfl

theorem restored_text {s : String} (counted : Utf8.Counted s) : Restored s := by
  have bytes : Restores (split? (Utf8.encode s).length) (Utf8.encode s) (Utf8.encode s) :=
    fun _ => split?_append rfl
  refine (restores_length counted).bind (bytes.last fun r => ?_)
  simp only [Utf8.decode?_encode]
  rfl

instance : Definite String where
  stable := (stable_decodeNat? 8).bind fun n => (stable_split? n).bind fun bytes =>
    stable_of_option (Utf8.decode? bytes)

theorem restored_none [Delimited α] : Restored (none : Option α) :=
  fun _ => rfl

theorem Restored.some [Delimited α] {a : α} (h : Restored a) : Restored (some a) :=
  h.map Option.some

instance [Delimited α] [Definite α] : Definite (Option α) where
  stable := by
    intro s t a r read
    simp only [decode?] at read
    split at read
    · cases read
      rfl
    · exact Definite.stable.map Option.some _ t a r read
    · cases read

/-! ## Lists -/

theorem itemsAfter?_succ [Delimited α] (read : List α) (n : Nat) :
    itemsAfter? read (n + 1) =
      (fun s => do let (a, s) ← decode? s; itemsAfter? (a :: read) n s) := by
  funext s
  rw [itemsAfter?]
  cases (decode? s : Option (α × List UInt8)) <;> rfl

theorem restores_items [Delimited α] {l : List α} (h : ∀ a ∈ l, Restored a) (read : List α) :
    Restores (itemsAfter? read l.length) (l.flatMap encode) (read.reverse ++ l) := by
  induction l generalizing read with
  | nil =>
    rw [List.append_nil]
    exact fun _ => rfl
  | cons a l ih =>
    have first : Restored a := h a List.mem_cons_self
    have rest := ih (fun b hb => h b (List.mem_cons_of_mem a hb)) (a :: read)
    rw [List.reverse_cons, List.append_assoc, List.singleton_append] at rest
    rw [List.length_cons, List.flatMap_cons, itemsAfter?_succ]
    exact first.bind rest

theorem stable_items [Delimited α] [Definite α] (read : List α) (n : Nat) :
    Stable (itemsAfter? read n) := by
  induction n generalizing read with
  | zero => exact stable_pure read.reverse
  | succ n ih =>
    rw [itemsAfter?_succ]
    exact Definite.stable.bind fun a => ih (a :: read)

theorem restored_list [Delimited α] {l : List α} (counted : l.length < 2 ^ 64)
    (h : ∀ a ∈ l, Restored a) : Restored l :=
  (restores_length counted).bind (restores_items h [])

instance [Delimited α] [Definite α] : Definite (List α) where
  stable := (stable_decodeNat? 8).bind fun n => stable_items [] n

end DocIndex.Delimited
